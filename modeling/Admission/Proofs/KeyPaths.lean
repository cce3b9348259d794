-- What is found at a key path after something was stored at one: what was stored there,
-- and what was there before at every path that goes another way.
import Admission.Settings.KeyPath
import Mathlib.Data.List.Basic

namespace Admission

/-! ## Tables -/

namespace Value

variable {name other : String} {v w : Value} {es : List (String × Value)}

theorem lookup_putNamed_self (name : String) (v : Value) (es : List (String × Value)) :
    (putNamed name v es).lookup name = some v := by
  induction es with
  | nil => exact List.lookup_cons_self
  | cons e rest ih =>
    obtain ⟨n, w⟩ := e
    rw [putNamed]
    by_cases h : n = name
    · rw [if_pos h, List.lookup_cons_self]
    · have hother : (name == n) = false := beq_eq_false_iff_ne.2 (Ne.symm h)
      rw [if_neg h, List.lookup_cons, hother]
      exact ih

theorem lookup_putNamed_of_ne (h : other ≠ name) (v : Value) (es : List (String × Value)) :
    (putNamed name v es).lookup other = es.lookup other := by
  have hother : (other == name) = false := beq_eq_false_iff_ne.2 h
  induction es with
  | nil =>
    rw [putNamed, List.lookup_cons, hother]
  | cons e rest ih =>
    obtain ⟨n, w⟩ := e
    rw [putNamed]
    by_cases hn : n = name
    · subst hn
      rw [if_pos rfl, List.lookup_cons, List.lookup_cons, hother]
    · rw [if_neg hn, List.lookup_cons, List.lookup_cons, ih]

/-- Only the entries that a put entry is one of are any different after it. -/
theorem filter_putNamed (p : String → Bool) (name : String) (v : Value)
    (es : List (String × Value)) :
    (putNamed name v es).filter (fun e => p e.1) =
      if p name then putNamed name v (es.filter fun e => p e.1) else es.filter fun e => p e.1 := by
  induction es with
  | nil =>
    cases hp : p name <;> simp [putNamed, hp]
  | cons e rest ih =>
    obtain ⟨n, w⟩ := e
    rw [putNamed]
    by_cases hn : n = name
    · subst hn
      cases hp : p n <;> simp [putNamed, hp]
    · cases hp : p name <;> cases hpn : p n <;> simp_all [putNamed]

theorem lookup_filter (p : String → Bool) (h : p name = true) (es : List (String × Value)) :
    (es.filter fun e => p e.1).lookup name = es.lookup name := by
  induction es with
  | nil => rfl
  | cons e rest ih =>
    obtain ⟨n, w⟩ := e
    by_cases hn : n = name
    · subst hn
      simp only [List.filter_cons, h, if_true, List.lookup_cons_self]
    · have hother : (name == n) = false := beq_eq_false_iff_ne.2 (Ne.symm hn)
      rw [List.lookup_cons, hother, ← ih, List.filter_cons]
      split
      · rw [List.lookup_cons, hother]
      · rfl

/-- Entries that came from others by putting one more among them, and since then the same as among
the others: those of its name are told apart from all others. -/
structure PutAmong (name : String) (v : Value) (es fs : List (String × Value)) : Prop where
  own : (fs.filter fun e => e.1 = name) = putNamed name v (es.filter fun e => e.1 = name)
  others : (fs.filter fun e => e.1 ≠ name) = es.filter fun e => e.1 ≠ name

namespace PutAmong

variable {fs : List (String × Value)}

theorem of_put (name : String) (v : Value) (es : List (String × Value)) :
    PutAmong name v es (putNamed name v es) where
  own := by
    rw [filter_putNamed (fun n => decide (n = name)), if_pos (decide_eq_true rfl)]
  others := by
    rw [filter_putNamed (fun n => decide (n ≠ name)), if_neg (by simp)]

theorem put (h : PutAmong name v es fs) (hother : other ≠ name) (w : Value) :
    PutAmong name v (putNamed other w es) (putNamed other w fs) where
  own := by
    rw [filter_putNamed (fun n => decide (n = name)), filter_putNamed (fun n => decide (n = name)),
      if_neg (by simpa using hother), if_neg (by simpa using hother)]
    exact h.own
  others := by
    rw [filter_putNamed (fun n => decide (n ≠ name)), filter_putNamed (fun n => decide (n ≠ name)),
      if_pos (by simpa using hother), if_pos (by simpa using hother), h.others]

theorem lookup_self (h : PutAmong name v es fs) : fs.lookup name = some v := by
  rw [← lookup_filter (fun n => decide (n = name)) (decide_eq_true rfl), h.own,
    lookup_putNamed_self]

theorem lookup_of_ne (h : PutAmong name v es fs) (hother : other ≠ name) :
    fs.lookup other = es.lookup other := by
  rw [← lookup_filter (fun n => decide (n ≠ name)) (decide_eq_true hother) fs, h.others,
    lookup_filter (fun n => decide (n ≠ name)) (decide_eq_true hother)]

theorem mem_putNamed {e : String × Value} (h : e ∈ putNamed name v es) :
    e = (name, v) ∨ e ∈ es := by
  induction es with
  | nil => exact Or.inl (List.mem_singleton.1 h)
  | cons first rest ih =>
    obtain ⟨n, w⟩ := first
    rw [putNamed] at h
    by_cases hn : n = name
    · rw [if_pos hn] at h
      rcases List.mem_cons.1 h with rfl | h
      · exact Or.inl rfl
      · exact Or.inr (List.mem_cons_of_mem _ h)
    · rw [if_neg hn] at h
      rcases List.mem_cons.1 h with rfl | h
      · exact Or.inr List.mem_cons_self
      · rcases ih h with rfl | h
        · exact Or.inl rfl
        · exact Or.inr (List.mem_cons_of_mem _ h)

/-- Nothing else came to the entries. -/
theorem mem (h : PutAmong name v es fs) {e : String × Value} (he : e ∈ fs) :
    e = (name, v) ∨ e ∈ es := by
  by_cases hname : e.1 = name
  · have hown : e ∈ fs.filter fun e => e.1 = name := List.mem_filter.2 ⟨he, decide_eq_true hname⟩
    rw [h.own] at hown
    rcases mem_putNamed hown with heq | hmem
    · exact Or.inl heq
    · exact Or.inr (List.mem_filter.1 hmem).1
  · have hothers : e ∈ fs.filter fun e => e.1 ≠ name :=
      List.mem_filter.2 ⟨he, decide_eq_true hname⟩
    rw [h.others] at hothers
    exact Or.inr (List.mem_filter.1 hothers).1

end PutAmong

end Value

namespace KeyPath

open Value

/-! ## Names -/

/-- A name is read up to the first character that is in none. -/
theorem readName_append (front rest : List Char) (hempty : front ≠ [])
    (hfront : ∀ c ∈ front, isNameChar c = true)
    (hrest : ∀ c, rest.head? = some c → isNameChar c = false) :
    readName (front ++ rest) = some (String.ofList front, rest) := by
  have hstop : rest.takeWhile isNameChar = [] := by
    cases rest with
    | nil => rfl
    | cons c rest => rw [List.takeWhile_cons_of_neg (by simp [hrest c rfl])]
  have htake : (front ++ rest).takeWhile isNameChar = front := by
    rw [List.takeWhile_append_of_pos hfront, hstop, List.append_nil]
  have hnonempty : front.isEmpty = false := List.isEmpty_eq_false_iff.2 hempty
  simp only [readName, htake, hnonempty, List.drop_left, Bool.false_eq_true, if_false]

/-! ## Members and items -/

section
variable {s t : String} {index : Int} {f : Value → Value} {v w : Value}

@[simp] theorem get?_modifyMember_self (s : String) (f : Value → Value) (v : Value) :
    (modifyMember s f v).get? s = some (f ((v.get? s).getD .null)) :=
  lookup_putNamed_self s _ _

theorem get?_modifyMember_of_ne (h : t ≠ s) (f : Value → Value) (v : Value) :
    (modifyMember s f v).get? t = v.get? t :=
  lookup_putNamed_of_ne h _ _

/-- A list that was filled up for an index is long enough for it. -/
theorem position_filled (index : Int) (length : Nat) :
    position index (length + (position index length + 1 - length)) = position index length := by
  unfold position
  split
  · rfl
  · omega

theorem item?_modifyItem_self (index : Int) (f : Value → Value) (v : Value) :
    item? index (modifyItem index f v) = some (f ((item? index v).getD .null)) := by
  have hitem : item? index v = v.items[position index v.items.length]? := by
    cases v <;> simp [item?, items]
  rw [hitem]
  simp only [modifyItem, item?, List.length_modify, List.length_append, List.length_replicate,
    position_filled, List.getElem?_modify_eq]
  generalize position index v.items.length = i
  by_cases hi : i < v.items.length
  · rw [List.getElem?_append_left hi, List.getElem?_eq_getElem hi]
    rfl
  · have hroom : i - v.items.length < i + 1 - v.items.length := by omega
    rw [List.getElem?_append_right (Nat.le_of_not_lt hi), List.getElem?_replicate_of_lt hroom,
      List.getElem?_eq_none (Nat.le_of_not_lt hi)]
    rfl

end

/-! ## Reading at a path -/

theorem at?_modify_self (path : KeyPath) (f : Value → Value) (v : Value) :
    path.at? (path.modify f v) = some (f ((path.at? v).getD .null)) := by
  induction path generalizing f with
  | name s => exact get?_modifyMember_self s f v
  | member path s ih =>
    rw [modify, at?, at?, ih, Option.bind_some, get?_modifyMember_self]
    cases path.at? v <;> rfl
  | item path index ih =>
    rw [modify, at?, at?, ih, Option.bind_some, item?_modifyItem_self]
    cases path.at? v <;> rfl

/-- Two paths that part: from some table on, one goes to one member and one to another. -/
inductive Apart : KeyPath → KeyPath → Prop
  | names {s t : String} (h : s ≠ t) : Apart (name s) (name t)
  | members {path : KeyPath} {s t : String} (h : s ≠ t) : Apart (member path s) (member path t)
  | belowMember {path other : KeyPath} {s : String} (h : Apart path other) :
      Apart (member path s) other
  | belowItem {path other : KeyPath} {index : Int} (h : Apart path other) :
      Apart (item path index) other
  | fromMember {path other : KeyPath} {s : String} (h : Apart path other) :
      Apart path (member other s)
  | fromItem {path other : KeyPath} {index : Int} (h : Apart path other) :
      Apart path (item other index)

/-- A change at a path changes nothing at one that parts from it. -/
theorem Apart.at?_modify {path other : KeyPath} (h : Apart path other) (f : Value → Value)
    (v : Value) : other.at? (path.modify f v) = other.at? v := by
  induction h generalizing f with
  | names h => exact get?_modifyMember_of_ne h.symm f v
  | @members path s t h =>
    rw [modify, at?, at?, at?_modify_self, Option.bind_some, get?_modifyMember_of_ne h.symm]
    cases path.at? v <;> rfl
  | belowMember _ ih | belowItem _ ih => exact ih _
  | fromMember _ ih | fromItem _ ih => rw [at?, at?, ih]

/-- What a change at a path that parts from a name does is done to another name. -/
theorem Apart.modify_of_name {path : KeyPath} {s : String} (h : Apart path (name s)) :
    ∃ other ≠ s, ∀ f, ∃ g, path.modify f = modifyMember other g := by
  generalize htarget : name s = target at h
  induction h with
  | @names t _ h =>
    cases htarget
    exact ⟨t, h, fun f => ⟨f, rfl⟩⟩
  | members _ | fromMember _ _ | fromItem _ _ => cases htarget
  | belowMember _ ih | belowItem _ ih =>
    obtain ⟨other, hother, hmodify⟩ := ih htarget
    exact ⟨other, hother, fun f => hmodify _⟩

/-- What a change at a path that parts from a member does is done to another name, or to another
member under the name. -/
theorem Apart.modify_of_member {path : KeyPath} {s t : String}
    (h : Apart path (member (name s) t)) :
    (∃ other ≠ s, ∀ f, ∃ g, path.modify f = modifyMember other g) ∨
    ∃ other ≠ t, ∀ f, ∃ g, path.modify f = modifyMember s (modifyMember other g) := by
  generalize htarget : member (name s) t = target at h
  induction h with
  | names _ | fromItem _ _ => cases htarget
  | @members _ other _ h =>
    cases htarget
    exact Or.inr ⟨other, h, fun f => ⟨f, rfl⟩⟩
  | fromMember h _ =>
    cases htarget
    exact Or.inl h.modify_of_name
  | belowMember _ ih | belowItem _ ih =>
    rcases ih htarget with ⟨other, hother, hmodify⟩ | ⟨other, hother, hmodify⟩
    · exact Or.inl ⟨other, hother, fun f => hmodify _⟩
    · exact Or.inr ⟨other, hother, fun f => hmodify _⟩

/-- What is at a path that parts from a name depends on what is under the other names, and so does
whether it fits. -/
theorem Apart.congr_of_name {path : KeyPath} {s : String} {v w : Value} (h : Apart path (name s))
    (hother : ∀ key ≠ s, w.get? key = v.get? key) :
    path.at? w = path.at? v ∧ path.fits w = path.fits v := by
  generalize htarget : name s = target at h
  induction h with
  | names h =>
    cases htarget
    exact ⟨hother _ h, rfl⟩
  | members _ | fromMember _ _ | fromItem _ _ => cases htarget
  | belowMember _ ih =>
    obtain ⟨hat, hfits⟩ := ih htarget
    exact ⟨by rw [at?, at?, hat], hfits⟩
  | belowItem _ ih =>
    obtain ⟨hat, hfits⟩ := ih htarget
    exact ⟨by rw [at?, at?, hat], by rw [fits, fits, hat, hfits]⟩

/-- And where it parts from a member, on the other members too. -/
theorem Apart.congr_of_member {path : KeyPath} {s t : String} {v w : Value}
    (h : Apart path (member (name s) t)) (hother : ∀ key ≠ s, w.get? key = v.get? key)
    (hbelow : ∀ key ≠ t, (w.get? s).bind (·.get? key) = (v.get? s).bind (·.get? key)) :
    path.at? w = path.at? v ∧ path.fits w = path.fits v := by
  generalize htarget : member (name s) t = target at h
  induction h with
  | names _ | fromItem _ _ => cases htarget
  | members h =>
    cases htarget
    exact ⟨hbelow _ h, rfl⟩
  | fromMember h _ =>
    cases htarget
    exact h.congr_of_name hother
  | belowMember _ ih =>
    obtain ⟨hat, hfits⟩ := ih htarget
    exact ⟨by rw [at?, at?, hat], hfits⟩
  | belowItem _ ih =>
    obtain ⟨hat, hfits⟩ := ih htarget
    exact ⟨by rw [at?, at?, hat], by rw [fits, fits, hat, hfits]⟩

/-- What a change leaves under a name depends only on what was there. -/
theorem get?_modify_congr {v w : Value} {key : String} (h : v.get? key = w.get? key)
    (path : KeyPath) (f : Value → Value) :
    (path.modify f v).get? key = (path.modify f w).get? key := by
  induction path generalizing f with
  | name s =>
    by_cases hs : key = s
    · subst hs
      simp only [modify, get?_modifyMember_self, h]
    · simp only [modify, get?_modifyMember_of_ne hs, h]
  | member path s ih | item path index ih => exact ih _

/-! ## Storing -/

/-- What is no table takes the place of what was there. -/
theorem set_eq_modify {v : Value} (h : ∀ es, v ≠ .table es) (root : Value) (path : KeyPath) :
    set root path v = path.modify (fun _ => v) root := by
  have hset : ∀ (root : Value) (s : String),
      root.setNamed s v = modifyMember s (fun _ => v) root := by
    intro root s
    cases v with
    | table es => exact absurd rfl (h es)
    | null | truth _ | integer _ | decimal _ | text _ | list _ => rfl
  cases path with
  | name s => exact hset root s
  | member parent s => simp only [set, modify, hset]
  | item parent index => rfl

end KeyPath

end Admission
