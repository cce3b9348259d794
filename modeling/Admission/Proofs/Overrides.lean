-- A setting that is a text, set in the environment. What is loaded is the text as it is
-- rendered, whatever the file says and whatever else is set, and nothing else changes.
import Admission.Proofs.KeyPaths
import Admission.Proofs.Renderings
import Admission.Settings.Load

namespace Admission

/-! ## Tables of texts -/

namespace Value

variable {es : List (String × Value)} {texts : List (String × String)}

theorem toTextTable?_cons (e : String × Value) (es : List (String × Value)) :
    (table (e :: es)).toTextTable? =
      e.2.toText?.bind fun text =>
        (table es).toTextTable?.map fun texts => (e.1, text) :: texts := by
  simp only [toTextTable?, List.mapM_cons]
  cases e.2.toText? with
  | none => rfl
  | some text =>
    cases es.mapM fun e => e.2.toText?.map fun s => (e.1, s) <;> rfl

theorem toTextTable?_cons_eq_some {e : String × Value} :
    (table (e :: es)).toTextTable? = some texts ↔
      ∃ text rest, e.2.toText? = some text ∧ (table es).toTextTable? = some rest ∧
        texts = (e.1, text) :: rest := by
  rw [toTextTable?_cons, Option.bind_eq_some_iff]
  constructor
  · rintro ⟨text, htext, hmap⟩
    obtain ⟨rest, hrest, rfl⟩ := Option.map_eq_some_iff.1 hmap
    exact ⟨text, rest, htext, hrest, rfl⟩
  · rintro ⟨text, rest, htext, hrest, rfl⟩
    exact ⟨text, htext, Option.map_eq_some_iff.2 ⟨rest, hrest, rfl⟩⟩

/-- A table is one of texts if each of its values can be taken for one. -/
theorem exists_toTextTable?_iff :
    (∃ texts, (table es).toTextTable? = some texts) ↔ ∀ e ∈ es, e.2.toText?.isSome := by
  induction es with
  | nil => exact ⟨fun _ e he => absurd he List.not_mem_nil, fun _ => ⟨[], rfl⟩⟩
  | cons first rest ih =>
    constructor
    · rintro ⟨texts, h⟩
      obtain ⟨text, others, htext, hothers, -⟩ := toTextTable?_cons_eq_some.1 h
      intro e he
      rcases List.mem_cons.1 he with rfl | he
      · exact Option.isSome_of_eq_some htext
      · exact ih.1 ⟨others, hothers⟩ e he
    · intro h
      obtain ⟨text, htext⟩ := Option.isSome_iff_exists.1 (h first List.mem_cons_self)
      obtain ⟨others, hothers⟩ := ih.2 fun e he => h e (List.mem_cons_of_mem _ he)
      exact ⟨_, toTextTable?_cons_eq_some.2 ⟨text, others, htext, hothers, rfl⟩⟩

theorem lookup_of_toTextTable? (h : (table es).toTextTable? = some texts) (name : String) :
    texts.lookup name = (es.lookup name).bind toText? := by
  induction es generalizing texts with
  | nil =>
    cases h
    rfl
  | cons first rest ih =>
    obtain ⟨text, others, htext, hothers, rfl⟩ := toTextTable?_cons_eq_some.1 h
    rw [List.lookup_cons, List.lookup_cons, ih hothers]
    split
    · exact htext.symm
    · rfl

end Value

/-! ## Settings in a table -/

namespace Settings

/-- Each setting is what a table has under its name, or stands in for what is left out. -/
structure ReadFrom (v : Value) (s : Settings) : Prop where
  sentinelId : (take v "sentinel_id" Value.toNat? none).map UInt32.ofNat = .ok s.sentinelId
  sentinelEndpoints : take v "sentinel_endpoints" Value.toTexts? none = .ok s.sentinelEndpoints
  coordinatorEndpoints :
    take v "coordinator_endpoints" Value.toTexts? none = .ok s.coordinatorEndpoints
  privateKeys : take v "sentinel_private_keys" Value.toTextTable? (some []) = .ok s.privateKeys
  threshold :
    (take v "attestation_threshold" Value.toNat? (some 0)).map UInt64.ofNat = .ok s.threshold
  peerTimeout :
    (take v "peer_timeout_ms" Value.toNat? (some 5000)).map UInt64.ofNat = .ok s.peerTimeout
  connectTimeout :
    (take v "connect_timeout_ms" Value.toNat? (some 1000)).map UInt64.ofNat = .ok s.connectTimeout
  peerRetry : (take v "peer_retry_ms" Value.toNat? (some 100)).map UInt64.ofNat = .ok s.peerRetry
  coordinatorRetry :
    (take v "coordinator_retry_ms" Value.toNat? (some 100)).map UInt64.ofNat =
      .ok s.coordinatorRetry
  initAttempts :
    (take v "coordinator_init_attempts" Value.toNat? (some 5)).map UInt32.ofNat =
      .ok s.initAttempts
  initDelay :
    (take v "coordinator_init_delay_ms" Value.toNat? (some 1000)).map UInt64.ofNat =
      .ok s.initDelay
  auditPath : take v "audit_db" Value.toOptionalText? (some none) = .ok s.auditPath

theorem bind_eq_ok_iff {α β : Type} {x : Except LoadFault α}
    {f : α → Except LoadFault β} {b : β} :
    (x >>= f) = .ok b ↔ ∃ a, x = .ok a ∧ f a = .ok b :=
  ⟨exists_ok_of_bind, fun ⟨_, hx, hf⟩ => hx ▸ hf⟩

theorem map_eq_ok_iff {α β : Type} {x : Except LoadFault α} {f : α → β} {b : β} :
    x.map f = .ok b ↔ ∃ a, x = .ok a ∧ f a = b :=
  ⟨exists_ok_of_map, fun ⟨_, hx, hf⟩ => hx ▸ congrArg Except.ok hf⟩

theorem ofValue_eq_ok_iff {v : Value} {s : Settings} : ofValue v = .ok s ↔ s.ReadFrom v := by
  simp only [ofValue, bind_eq_ok_iff, pure, Except.pure, Except.ok.injEq]
  constructor
  · rintro ⟨id, hid, sentinels, hsentinels, coordinators, hcoordinators, keys, hkeys, threshold,
      hthreshold, peerTimeout, hpeerTimeout, connectTimeout, hconnectTimeout, peerRetry,
      hpeerRetry, coordinatorRetry, hcoordinatorRetry, attempts, hattempts, delay, hdelay, path,
      hpath, rfl⟩
    exact ⟨map_eq_ok_iff.2 ⟨id, hid, rfl⟩, hsentinels, hcoordinators, hkeys, hthreshold,
      hpeerTimeout, hconnectTimeout, hpeerRetry, hcoordinatorRetry,
      map_eq_ok_iff.2 ⟨attempts, hattempts, rfl⟩, hdelay, hpath⟩
  · intro h
    obtain ⟨id, hid, hsentinelId⟩ := map_eq_ok_iff.1 h.sentinelId
    obtain ⟨attempts, hattempts, hinitAttempts⟩ := map_eq_ok_iff.1 h.initAttempts
    refine ⟨id, hid, _, h.sentinelEndpoints, _, h.coordinatorEndpoints, _, h.privateKeys, _,
      h.threshold, _, h.peerTimeout, _, h.connectTimeout, _, h.peerRetry, _, h.coordinatorRetry,
      attempts, hattempts, _, h.initDelay, _, h.auditPath, ?_⟩
    rw [hinitAttempts, hsentinelId]
    rfl

theorem take_congr {α : Type} {v w : Value} {key : String} (h : v.get? key = w.get? key)
    (read : Value → Option α) (default : Option α) :
    take v key read default = take w key read default := by
  unfold take
  rw [h]

/-- Where another table has the same under all names but one, all other settings are the same. -/
theorem ReadFrom.of_auditPath {v w : Value} {s : Settings} {path : Option String}
    (h : s.ReadFrom v) (hother : ∀ key ≠ "audit_db", w.get? key = v.get? key)
    (hpath : take w "audit_db" Value.toOptionalText? (some none) = .ok path) :
    { s with auditPath := path }.ReadFrom w := by
  constructor
  case auditPath => exact hpath
  all_goals rw [take_congr (hother _ (by decide))]
  exacts [h.sentinelId, h.sentinelEndpoints, h.coordinatorEndpoints, h.privateKeys, h.threshold,
    h.peerTimeout, h.connectTimeout, h.peerRetry, h.coordinatorRetry, h.initAttempts, h.initDelay]

theorem ReadFrom.of_privateKeys {v w : Value} {s : Settings} {keys : List (String × String)}
    (h : s.ReadFrom v) (hother : ∀ key ≠ "sentinel_private_keys", w.get? key = v.get? key)
    (hkeys : take w "sentinel_private_keys" Value.toTextTable? (some []) = .ok keys) :
    { s with privateKeys := keys }.ReadFrom w := by
  constructor
  case privateKeys => exact hkeys
  all_goals rw [take_congr (hother _ (by decide))]
  exacts [h.sentinelId, h.sentinelEndpoints, h.coordinatorEndpoints, h.threshold, h.peerTimeout,
    h.connectTimeout, h.peerRetry, h.coordinatorRetry, h.initAttempts, h.initDelay, h.auditPath]

/-- What is loaded is read from a table that the file gives, with the environment on top. -/
theorem load_eq (files : List (String × String)) (path : String) :
    (∀ environment, load files path environment = .error .unusable) ∨
    ∃ entries, ∀ environment, load files path environment =
      ((Value.table []).setPaths (entries ++ Environment.entries environment)).elim
        (.error .pastFront) ofValue := by
  unfold load
  generalize (locateSettings files path).bind _ = content
  cases content with
  | none => exact Or.inl fun _ => rfl
  | some entries =>
    refine Or.inr ⟨entries, fun environment => ?_⟩
    dsimp only
    cases (Value.table []).setPaths (entries ++ Environment.entries environment) <;> rfl

end Settings

/-! ## What an override does to a table -/

namespace Environment

variable {e : String × String}

theorem entries_append (es fs : List (String × String)) :
    entries (es ++ fs) = entries es ++ entries fs :=
  List.filterMap_append

theorem entries_cons_of_key? {key : String} (h : key? e.1 = some key)
    (es : List (String × String)) : entries (e :: es) = (key, value key e.2) :: entries es := by
  rw [entries, List.filterMap_cons_some (by rw [h, Option.map_some])]
  rfl

theorem ne_table_of_mem_entries {es : List (String × String)} {named : String × Value}
    (h : named ∈ entries es) (vs : List (String × Value)) : named.2 ≠ .table vs := by
  obtain ⟨e, -, he⟩ := List.mem_filterMap.1 h
  obtain ⟨key, -, rfl⟩ := Option.map_eq_some_iff.1 he
  exact value_ne_table key e.2 vs

/-- None of the variables sets anything on the way to this path, or below it. -/
def KeepClear (path : KeyPath) (es : List (String × String)) : Prop :=
  ∀ e ∈ es, ∀ key, key? e.1 = some key → (KeyPath.ofKey key).Apart path

end Environment

namespace Value

variable {es : List (String × Value)} {root other : Value}

theorem setPaths_append (root : Value) (es fs : List (String × Value)) :
    root.setPaths (es ++ fs) = (root.setPaths es).bind (·.setPaths fs) := by
  induction es generalizing root with
  | nil => rfl
  | cons e rest ih =>
    simp only [List.cons_append, setPaths]
    split
    · exact ih _
    · rfl

theorem setPaths_cons_of_fits {key : String} (h : (KeyPath.ofKey key).fits root = true)
    (v : Value) (es : List (String × Value)) :
    root.setPaths ((key, v) :: es) = (KeyPath.set root (.ofKey key) v).setPaths es := by
  rw [setPaths, if_pos h]

/-- What relates two tables, and is kept by each change of both, relates them after all changes.
Either all paths fit both tables in their turn, or one of them fits neither. -/
theorem setPaths_relate {R : Value → Value → Prop} (hes : ∀ e ∈ es, ∀ vs, e.2 ≠ .table vs)
    (hstep : ∀ e ∈ es, ∀ root other, R root other →
      (KeyPath.ofKey e.1).fits other = (KeyPath.ofKey e.1).fits root ∧
        ∀ f, R ((KeyPath.ofKey e.1).modify f root) ((KeyPath.ofKey e.1).modify f other))
    (h : R root other) : Option.Rel R (root.setPaths es) (other.setPaths es) := by
  induction es generalizing root other with
  | nil => exact .some h
  | cons e rest ih =>
    have htable := hes e List.mem_cons_self
    obtain ⟨hfits, hmodify⟩ := hstep e List.mem_cons_self _ _ h
    rw [setPaths, setPaths, hfits]
    split
    · rw [KeyPath.set_eq_modify htable, KeyPath.set_eq_modify htable]
      exact ih (fun e he => hes e (List.mem_cons_of_mem _ he))
        (fun e he => hstep e (List.mem_cons_of_mem _ he)) (hmodify _)
    · exact .none

theorem toOptionalText?_of_toText? {v : Value} {text : String} (h : v.toText? = some text) :
    v.toOptionalText? = some (some text) := by
  cases v with
  | null => cases h
  | truth _ | integer _ | decimal _ | text _ | list _ | table _ =>
    exact congrArg (Option.map some) h

end Value

/-! ## Settings that are texts -/

inductive TextSetting where
  | auditPath
  /-- The secret of the sentinel with this number. -/
  | secret (id : String)
deriving DecidableEq

namespace TextSetting

/-- Where the setting is. -/
def path : TextSetting → KeyPath
  | auditPath => .name "audit_db"
  | secret id => .member (.name "sentinel_private_keys") id

def of (s : Settings) : TextSetting → Option String
  | auditPath => s.auditPath
  | secret id => s.privateKeys.lookup id

/-- Whether a variable of this name sets the setting. -/
def IsSetBy (setting : TextSetting) (name : String) : Prop :=
  ∃ key, Environment.key? name = some key ∧ KeyPath.ofKey key = setting.path

/-- Another table is the same but for the setting, which has this value there. -/
def PutIn (v : Value) (root other : Value) : TextSetting → Prop
  | auditPath =>
    (∀ key ≠ "audit_db", other.get? key = root.get? key) ∧ other.get? "audit_db" = some v
  | secret id =>
    (∀ key ≠ "sentinel_private_keys", other.get? key = root.get? key) ∧
      ∃ fs, other.get? "sentinel_private_keys" = some (.table fs) ∧
        Value.PutAmong id v ((root.get? "sentinel_private_keys").getD .null).entries fs

variable {setting : TextSetting} {v root other : Value}

theorem putIn_modify (setting : TextSetting) (v root : Value) :
    setting.PutIn v root (setting.path.modify (fun _ => v) root) := by
  cases setting with
  | auditPath =>
    exact ⟨fun key hkey => KeyPath.get?_modifyMember_of_ne hkey _ _,
      KeyPath.get?_modifyMember_self _ _ _⟩
  | secret id =>
    exact ⟨fun key hkey => KeyPath.get?_modifyMember_of_ne hkey _ _, _,
      KeyPath.get?_modifyMember_self _ _ _, .of_put id v _⟩

theorem PutIn.modify {path : KeyPath} (h : setting.PutIn v root other)
    (happart : path.Apart setting.path) (f : Value → Value) :
    setting.PutIn v (path.modify f root) (path.modify f other) := by
  cases setting with
  | auditPath =>
    obtain ⟨hothers, hown⟩ := h
    refine ⟨fun key hkey => KeyPath.get?_modify_congr (hothers key hkey) path f, ?_⟩
    have hkept := happart.at?_modify f other
    exact hkept.trans hown
  | secret id =>
    obtain ⟨hothers, fs, hfs, hput⟩ := h
    refine ⟨fun key hkey => KeyPath.get?_modify_congr (hothers key hkey) path f, ?_⟩
    rcases happart.modify_of_member with ⟨name, hname, hmodify⟩ | ⟨name, hname, hmodify⟩
    · obtain ⟨g, hg⟩ := hmodify f
      rw [hg, KeyPath.get?_modifyMember_of_ne hname.symm,
        KeyPath.get?_modifyMember_of_ne hname.symm]
      exact ⟨fs, hfs, hput⟩
    · obtain ⟨g, hg⟩ := hmodify f
      rw [hg, KeyPath.get?_modifyMember_self, KeyPath.get?_modifyMember_self, hfs]
      refine ⟨_, rfl, ?_⟩
      change Value.PutAmong id v
        (Value.putNamed name (g ((List.lookup name (Value.entries _)).getD .null)) _)
        (Value.putNamed name (g ((fs.lookup name).getD .null)) fs)
      rw [hput.lookup_of_ne hname]
      exact hput.put hname _

/-- A path that parts from the setting fits both tables or none. -/
theorem PutIn.fits_eq {path : KeyPath} (h : setting.PutIn v root other)
    (happart : path.Apart setting.path) : path.fits other = path.fits root := by
  cases setting with
  | auditPath => exact (happart.congr_of_name h.1).2
  | secret id =>
    obtain ⟨hothers, fs, hfs, hput⟩ := h
    refine (happart.congr_of_member hothers fun key hkey => ?_).2
    have hkept := hput.lookup_of_ne hkey
    rw [hfs, Option.bind_some]
    cases hroot : root.get? "sentinel_private_keys" with
    | none =>
      rw [hroot] at hkept
      exact hkept
    | some w =>
      rw [hroot] at hkept
      exact hkept

/-- Whatever is set afterwards without touching it, the setting keeps its value. -/
theorem putIn_setPaths {es : List (String × String)} (h : setting.PutIn v root other)
    (hclear : Environment.KeepClear setting.path es) :
    Option.Rel (setting.PutIn v) (root.setPaths (Environment.entries es))
      (other.setPaths (Environment.entries es)) := by
  refine Value.setPaths_relate (R := setting.PutIn v)
    (fun e he => Environment.ne_table_of_mem_entries he) ?_ h
  intro e he root other hput
  obtain ⟨named, hnamed, heq⟩ := List.mem_filterMap.1 he
  obtain ⟨key, hkey, rfl⟩ := Option.map_eq_some_iff.1 heq
  have happart := hclear named hnamed key hkey
  exact ⟨hput.fits_eq happart, hput.modify happart⟩

theorem fits_path (setting : TextSetting) (root : Value) : setting.path.fits root = true := by
  cases setting <;> rfl

/-- What is read where a value was put is what the value is taken for. -/
theorem PutIn.of_eq {s : Settings} {text : String} (h : setting.PutIn v root other)
    (hread : s.ReadFrom other) (htext : v.toText? = some text) : setting.of s = some text := by
  cases setting with
  | auditPath =>
    obtain ⟨-, hown⟩ := h
    have hpath := hread.auditPath
    simp only [Settings.take, hown, Value.toOptionalText?_of_toText? htext, Except.ok.injEq]
      at hpath
    exact hpath.symm
  | secret id =>
    obtain ⟨-, fs, hfs, hput⟩ := h
    have hkeys := hread.privateKeys
    simp only [Settings.take, hfs] at hkeys
    cases htexts : (Value.table fs).toTextTable? with
    | none => simp [htexts] at hkeys
    | some texts =>
      simp only [htexts, Except.ok.injEq] at hkeys
      rw [of, ← hkeys, Value.lookup_of_toTextTable? htexts, hput.lookup_self, Option.bind_some,
        htext]

/-- The texts of a table that may be left out. -/
theorem toTextTable?_of_take {texts : List (String × String)}
    (h : Settings.take root "sentinel_private_keys" Value.toTextTable? (some []) = .ok texts) :
    (Value.table ((root.get? "sentinel_private_keys").getD .null).entries).toTextTable? =
      some texts := by
  unfold Settings.take at h
  cases hget : root.get? "sentinel_private_keys" with
  | none =>
    simp only [hget, Except.ok.injEq] at h
    subst h
    rfl
  | some w =>
    simp only [hget] at h
    cases w with
    | table es =>
      cases htexts : (Value.table es).toTextTable? with
      | none => simp [htexts] at h
      | some found =>
        simp only [htexts, Except.ok.injEq] at h
        subst h
        exact htexts
    | null | truth _ | integer _ | decimal _ | text _ | list _ => cases h

/-- Where the settings can be read without the value they can be read with it, and all else is the
same. -/
theorem PutIn.exists_readFrom {s : Settings} {text : String} (h : setting.PutIn v root other)
    (hread : s.ReadFrom root) (htext : v.toText? = some text) :
    ∃ t : Settings, t.ReadFrom other ∧
      (∀ another ≠ setting, another.of t = another.of s) ∧
      { t with privateKeys := s.privateKeys, auditPath := s.auditPath } = s := by
  cases setting with
  | auditPath =>
    obtain ⟨hothers, hown⟩ := h
    refine ⟨{ s with auditPath := some text }, hread.of_auditPath hothers ?_, ?_, rfl⟩
    · simp only [Settings.take, hown, Value.toOptionalText?_of_toText? htext]
    · intro another hanother
      cases another with
      | auditPath => exact absurd rfl hanother
      | secret id => rfl
  | secret id =>
    obtain ⟨hothers, fs, hfs, hput⟩ := h
    have htexts := toTextTable?_of_take hread.privateKeys
    have hall := Value.exists_toTextTable?_iff.1 ⟨_, htexts⟩
    obtain ⟨keys, hkeys⟩ := Value.exists_toTextTable?_iff.2 fun e he => by
      rcases hput.mem he with rfl | he
      · exact Option.isSome_of_eq_some htext
      · exact hall e he
    refine ⟨{ s with privateKeys := keys }, hread.of_privateKeys hothers ?_, ?_, rfl⟩
    · simp only [Settings.take, hfs, hkeys]
    · intro another hanother
      cases another with
      | auditPath => rfl
      | secret another =>
        have hne : another ≠ id := fun heq => hanother (congrArg secret heq)
        rw [of, of, Value.lookup_of_toTextTable? hkeys, Value.lookup_of_toTextTable? htexts,
          hput.lookup_of_ne hne]

/-! ## Variables -/

theorem isSetBy_auditPath : auditPath.IsSetBy "SENTINEL_AUDIT_DB" :=
  ⟨"audit_db", by decide +kernel, by decide +kernel⟩

/-- The number of a sentinel, or another name in lower case. -/
def IsPlain (id : String) : Prop :=
  id ≠ "" ∧ ∀ c ∈ id.toList, KeyPath.isNameChar c = true ∧ Value.loweredChar c = c

theorem isPlain_toString (n : Nat) : IsPlain (toString n) := by
  have hdigit : ∀ c : Char, c.isDigit = true →
      KeyPath.isNameChar c = true ∧ Value.loweredChar c = c := by
    intro c hc
    have hascii := Binary64.toNat_lt_of_isNumberChar (Binary64.isNumberChar_of_isDigit hc)
    exact Text.of_ascii (P := fun c => c.isDigit = true →
      KeyPath.isNameChar c = true ∧ Value.loweredChar c = c) (by decide +kernel) hascii hc
  constructor
  · intro hempty
    have hlist := congrArg String.toList hempty
    rw [Nat.toString_eq_repr, Nat.toList_repr] at hlist
    exact Nat.toDigits_ne_nil hlist
  · intro c hc
    rw [Nat.toString_eq_repr, Nat.toList_repr] at hc
    exact hdigit c (Nat.isDigit_of_mem_toDigits (by decide) le_rfl hc)

theorem isSetBy_secret {id : String} (h : IsPlain id) :
    (secret id).IsSetBy ("SENTINEL_SENTINEL_PRIVATE_KEYS." ++ id) := by
  obtain ⟨hempty, hplain⟩ := h
  have hid : id.toList.map Value.loweredChar = id.toList :=
    (List.map_congr_left fun c hc => (hplain c hc).2).trans (List.map_id' _)
  have hlowered : (Value.lowered ("SENTINEL_SENTINEL_PRIVATE_KEYS." ++ id)).toList =
      Environment.beginning ++ ("sentinel_private_keys." ++ id).toList := by
    have hfront : "SENTINEL_SENTINEL_PRIVATE_KEYS.".toList.map Value.loweredChar =
        Environment.beginning ++ "sentinel_private_keys.".toList := by
      decide +kernel
    rw [Value.toList_lowered, String.toList_append, List.map_append, hid, hfront,
      String.toList_append, List.append_assoc]
  refine ⟨"sentinel_private_keys." ++ id, ?_, ?_⟩
  · have hbegins : Environment.beginning.isPrefixOf
        (Environment.beginning ++ ("sentinel_private_keys." ++ id).toList) = true :=
      List.isPrefixOf_iff_prefix.2 (List.prefix_append _ _)
    simp only [Environment.key?, hlowered, hbegins, if_true, List.drop_left, String.ofList_toList]
  · have hlist : id.toList ≠ [] := fun hnil => hempty (String.toList_eq_nil_iff.1 hnil)
    have hname := KeyPath.readName_append id.toList [] hlist (fun c hc => (hplain c hc).1) (by simp)
    rw [List.append_nil, String.ofList_toList] at hname
    have hfront := KeyPath.readName_append "sentinel_private_keys".toList ('.' :: id.toList)
      (by decide) (List.all_eq_true.1 (by decide +kernel)) (by simp +decide)
    have hkey : ("sentinel_private_keys." ++ id).toList =
        "sentinel_private_keys".toList ++ '.' :: id.toList := by
      have hpoint : "sentinel_private_keys.".toList = "sentinel_private_keys".toList ++ ['.'] := by
        decide +kernel
      rw [String.toList_append, hpoint, List.append_assoc]
      rfl
    simp only [KeyPath.ofKey, hkey, hfront, Option.bind_some, List.length_cons, KeyPath.readSteps,
      hname]
    rfl

end TextSetting

/-! ## Loading -/

namespace TextSetting

section
variable {setting : TextSetting} {name : String} {after : List (String × String)}

/-- The variable of a setting puts its value in the table that the settings are read from. -/
theorem IsSetBy.putIn (hset : setting.IsSetBy name) (before : List (String × String))
    (hclear : Environment.KeepClear setting.path after) (content : String) (root : Value)
    (entries : List (String × Value)) :
    ∃ v, v.toText? = some (Environment.rendered content) ∧
      Option.Rel (setting.PutIn v)
        (root.setPaths (entries ++ Environment.entries (before ++ after)))
        (root.setPaths (entries ++ Environment.entries (before ++ (name, content) :: after))) := by
  obtain ⟨key, hkey, hpath⟩ := hset
  have hlist : key ∉ Environment.listKeys := by
    intro hmem
    have hnames : ∀ key ∈ Environment.listKeys, KeyPath.ofKey key = .name key := by
      decide +kernel
    rw [hnames key hmem] at hpath
    cases setting with
    | auditPath =>
      cases hpath
      exact absurd hmem (by decide)
    | secret id => cases hpath
  refine ⟨Environment.value key content, Environment.toText?_value hlist, ?_⟩
  have hfront : ∀ es : List (String × String),
      root.setPaths (entries ++ Environment.entries (before ++ es)) =
        (root.setPaths (entries ++ Environment.entries before)).bind
          (·.setPaths (Environment.entries es)) := fun es => by
    rw [Environment.entries_append, ← List.append_assoc, Value.setPaths_append]
  rw [hfront, hfront, Environment.entries_cons_of_key? (e := (name, content)) hkey]
  cases root.setPaths (entries ++ Environment.entries before) with
  | none => exact .none
  | some between =>
    have hfits : (KeyPath.ofKey key).fits between = true := by
      rw [hpath]
      exact fits_path setting between
    rw [Option.bind_some, Option.bind_some, Value.setPaths_cons_of_fits hfits,
      KeyPath.set_eq_modify (Environment.value_ne_table key content), hpath]
    exact putIn_setPaths (putIn_modify setting _ _) hclear

/-- Settings are loaded without a variable of a setting if they are loaded with it, and the other
way round, and then they are read from two tables of which one has the value of the setting. -/
theorem IsSetBy.load (hset : setting.IsSetBy name) (before : List (String × String))
    (hclear : Environment.KeepClear setting.path after) (files : List (String × String))
    (path content : String) :
    (∃ fault, Settings.load files path (before ++ after) = .error fault ∧
      Settings.load files path (before ++ (name, content) :: after) = .error fault) ∨
    ∃ v root other, v.toText? = some (Environment.rendered content) ∧
      setting.PutIn v root other ∧
      Settings.load files path (before ++ after) = Settings.ofValue root ∧
      Settings.load files path (before ++ (name, content) :: after) = Settings.ofValue other := by
  rcases Settings.load_eq files path with herror | ⟨entries, hload⟩
  · exact Or.inl ⟨_, herror _, herror _⟩
  · obtain ⟨v, htext, hput⟩ := hset.putIn before hclear content (.table []) entries
    rw [hload, hload]
    generalize (Value.table []).setPaths (entries ++ Environment.entries (before ++ after)) =
      plain at hput ⊢
    generalize (Value.table []).setPaths
      (entries ++ Environment.entries (before ++ (name, content) :: after)) = changed at hput ⊢
    cases hput with
    | none => exact Or.inl ⟨_, rfl, rfl⟩
    | some hput => exact Or.inr ⟨v, _, _, htext, hput, rfl, rfl⟩

end

end TextSetting

/-- A setting that is a text can be set in the environment: the path of the audit, or the secret of
a sentinel. Whatever the file says and whatever else is set, what is loaded is the text as it is
rendered. That never makes the settings unreadable, and nothing else changes. A text is rendered
as it is written where it is taken for no truth value and no number, which is so for every longer
text with a character that no number has, and where it is written as a truth value or a number is
written out. Any other text is changed. -/
theorem an_override_of_a_text_is_rendered (setting : TextSetting) (name : String)
    (hset : setting.IsSetBy name) (before after : List (String × String))
    (hclear : Environment.KeepClear setting.path after) (files : List (String × String))
    (path content : String) :
    (∀ s, Settings.load files path (before ++ (name, content) :: after) = .ok s →
      setting.of s = some (Environment.rendered content)) ∧
    (∀ s, Settings.load files path (before ++ after) = .ok s →
      ∃ t, Settings.load files path (before ++ (name, content) :: after) = .ok t ∧
        setting.of t = some (Environment.rendered content) ∧
        (∀ another ≠ setting, another.of t = another.of s) ∧
        { t with privateKeys := s.privateKeys, auditPath := s.auditPath } = s) ∧
    (Environment.rendered content = content ↔
      Environment.guess? content = none ∨ content = "true" ∨ content = "false" ∨
      (∃ n, Value.inIntegerRange n = true ∧ content = toString n) ∨
      ∃ x, Environment.guess? content = some (.decimal x) ∧ content = x.text) ∧
    (∀ c ∈ content.toList, Binary64.isNumberChar c = false → 10 ≤ content.length →
      Environment.rendered content = content) ∧
    TextSetting.auditPath.IsSetBy "SENTINEL_AUDIT_DB" ∧
    (∀ id, TextSetting.IsPlain id →
      (TextSetting.secret id).IsSetBy ("SENTINEL_SENTINEL_PRIVATE_KEYS." ++ id)) ∧
    ∀ n : Nat, TextSetting.IsPlain (toString n) := by
  refine ⟨?_, ?_, Environment.rendered_eq_self_iff, ?_, TextSetting.isSetBy_auditPath,
    fun id => TextSetting.isSetBy_secret, TextSetting.isPlain_toString⟩
  · intro s hread
    rcases hset.load before hclear files path content with
      ⟨fault, -, herror⟩ | ⟨v, root, other, htext, hput, -, hother⟩
    · rw [herror] at hread
      cases hread
    · rw [hother, Settings.ofValue_eq_ok_iff] at hread
      exact hput.of_eq hread htext
  · intro s hread
    rcases hset.load before hclear files path content with
      ⟨fault, herror, -⟩ | ⟨v, root, other, htext, hput, hroot, hother⟩
    · rw [herror] at hread
      cases hread
    · rw [hroot, Settings.ofValue_eq_ok_iff] at hread
      obtain ⟨t, hnew, hothers, hrest⟩ := hput.exists_readFrom hread htext
      refine ⟨t, ?_, hput.of_eq hnew htext, hothers, hrest⟩
      rw [hother, Settings.ofValue_eq_ok_iff]
      exact hnew
  · intro c hc hletter hlong
    exact Environment.rendered_of_guess?_none
      (Environment.guess?_eq_none_of_not_isNumberChar hc hletter hlong)

namespace Sample

def settingsText : String :=
  "\x7b\"sentinel_id\": 0, \"sentinel_endpoints\": [\"127.0.0.1:20000\", \"127.0.0.1:20001\"], " ++
    "\"coordinator_endpoints\": [\"127.0.0.1:30000\"]\x7d"

def settingsFiles : List (String × String) := [("s.json", settingsText)]

/-- What the file says, with everything that it leaves out. -/
def plainSettings : Settings :=
  .basic 0 ["127.0.0.1:20000", "127.0.0.1:20001"] ["127.0.0.1:30000"]

def hexSecret : String := "9d61b19deffd5a60ba844af492ec2cc44449c5697b326919703bac031cae7f60"

/-- A secret with letters is taken as it is written, between two other variables. -/
theorem a_secret_with_letters_is_taken_as_written :
    (TextSetting.secret "0").IsSetBy "SENTINEL_SENTINEL_PRIVATE_KEYS.0" ∧
    Environment.KeepClear (TextSetting.secret "0").path [("SENTINEL_AUDIT_DB", "audit.db")] ∧
    Environment.rendered hexSecret = hexSecret ∧
    ∃ t, Settings.load settingsFiles "s.json" ([("SENTINEL_ATTESTATION_THRESHOLD", "1")] ++
        ("SENTINEL_SENTINEL_PRIVATE_KEYS.0", hexSecret) :: [("SENTINEL_AUDIT_DB", "audit.db")]) =
          .ok t ∧
      (TextSetting.secret "0").of t = some (Environment.rendered hexSecret) ∧
      TextSetting.auditPath.of t = some "audit.db" := by
  have hset : (TextSetting.secret "0").IsSetBy "SENTINEL_SENTINEL_PRIVATE_KEYS.0" :=
    TextSetting.isSetBy_secret (TextSetting.isPlain_toString 0)
  have hclear : Environment.KeepClear (TextSetting.secret "0").path
      [("SENTINEL_AUDIT_DB", "audit.db")] := by
    intro e he key hkey
    rw [List.mem_singleton.1 he] at hkey
    obtain ⟨audit, haudit, hpath⟩ := TextSetting.isSetBy_auditPath
    rw [haudit] at hkey
    cases hkey
    rw [hpath]
    exact .fromMember (.names (by decide))
  have hload : Settings.load settingsFiles "s.json"
      ([("SENTINEL_ATTESTATION_THRESHOLD", "1")] ++ [("SENTINEL_AUDIT_DB", "audit.db")]) =
        .ok { plainSettings with threshold := 1, auditPath := some "audit.db" } := by
    decide +kernel
  obtain ⟨-, hloaded, -, hletter, -⟩ := an_override_of_a_text_is_rendered (.secret "0")
    "SENTINEL_SENTINEL_PRIVATE_KEYS.0" hset [("SENTINEL_ATTESTATION_THRESHOLD", "1")]
    [("SENTINEL_AUDIT_DB", "audit.db")] hclear settingsFiles "s.json" hexSecret
  obtain ⟨t, ht, hsecret, hothers, -⟩ := hloaded _ hload
  refine ⟨hset, hclear, ?_, t, ht, hsecret, hothers .auditPath (by decide)⟩
  exact hletter 'd' (by decide +kernel) rfl (by decide +kernel)

def decimalSecret : String := "1234567890123456789012345678901234567890123456789012345678901234"

def roundedSecret : String := "1234567890123456800000000000000000000000000000000000000000000000"

/-- A secret of decimal digits becomes another secret, as it is taken for a number and rounded. And
the zeros in front of a path are lost. -/
theorem a_secret_of_decimal_digits_becomes_another :
    (TextSetting.secret "0").IsSetBy "SENTINEL_SENTINEL_PRIVATE_KEYS.0" ∧
    Settings.load settingsFiles "s.json" [("SENTINEL_SENTINEL_PRIVATE_KEYS.0", decimalSecret)] =
      .ok { plainSettings with privateKeys := [("0", roundedSecret)] } ∧
    (Secret.ofText decimalSecret).isOk = true ∧ (Secret.ofText roundedSecret).isOk = true ∧
    Secret.ofText decimalSecret ≠ Secret.ofText roundedSecret ∧
    TextSetting.auditPath.IsSetBy "SENTINEL_AUDIT_DB" ∧
    Settings.load settingsFiles "s.json" [("SENTINEL_AUDIT_DB", "007")] =
      .ok { plainSettings with auditPath := some "7" } :=
  ⟨TextSetting.isSetBy_secret (TextSetting.isPlain_toString 0), by decide +kernel,
    by decide +kernel, by decide +kernel, by decide +kernel, TextSetting.isSetBy_auditPath,
    by decide +kernel⟩

end Sample

end Admission
