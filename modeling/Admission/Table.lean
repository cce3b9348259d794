-- Tables sorted by key, where the keys are strings of 32 bytes. A table holds
-- each key once, so what it lists does not depend on the order of the writes.
import Admission.ByteString

namespace Admission

/-! ## Lists of pairs, sorted by key -/

/-- The pairs of a table, each key once and the keys in increasing order. -/
def KeysAscend {α : Type} (entries : List (Hash × α)) : Prop :=
  entries.Pairwise fun a b => a.1 < b.1

/-- Puts a value under a key, in place of the one that may be there. -/
def putEntry {α : Type} (key : Hash) (value : α) : List (Hash × α) → List (Hash × α)
  | [] => [(key, value)]
  | (k, v) :: rest =>
    match compare key k with
    | .lt => (key, value) :: (k, v) :: rest
    | .eq => (key, value) :: rest
    | .gt => (k, v) :: putEntry key value rest

theorem keys_putEntry {α : Type} (key : Hash) (value : α) (entries : List (Hash × α))
    (e : Hash × α) (h : e ∈ putEntry key value entries) : e.1 = key ∨ e ∈ entries := by
  induction entries with
  | nil =>
    simp only [putEntry, List.mem_singleton] at h
    exact Or.inl (by rw [h])
  | cons x rest ih =>
    simp only [putEntry] at h
    split at h
    · simp only [List.mem_cons] at h
      rcases h with h | h
      · exact Or.inl (by rw [h])
      · exact Or.inr (List.mem_cons.2 h)
    · simp only [List.mem_cons] at h
      rcases h with h | h
      · exact Or.inl (by rw [h])
      · exact Or.inr (List.mem_cons_of_mem _ h)
    · simp only [List.mem_cons] at h
      rcases h with h | h
      · exact Or.inr (by rw [h]; exact List.mem_cons_self)
      · rcases ih h with h | h
        · exact Or.inl h
        · exact Or.inr (List.mem_cons_of_mem _ h)

theorem keysAscend_putEntry {α : Type} (key : Hash) (value : α) (entries : List (Hash × α))
    (h : KeysAscend entries) : KeysAscend (putEntry key value entries) := by
  unfold KeysAscend at *
  induction entries with
  | nil => simp [putEntry]
  | cons x rest ih =>
    have hx := (List.pairwise_cons.1 h).1
    have hrest := (List.pairwise_cons.1 h).2
    simp only [putEntry]
    split
    · rename_i hlt
      refine List.pairwise_cons.2 ⟨?_, h⟩
      intro e he
      rcases List.mem_cons.1 he with he | he
      · rw [he]; exact hlt
      · exact ByteString.lt_trans hlt (hx e he)
    · rename_i heq
      refine List.pairwise_cons.2 ⟨?_, hrest⟩
      intro e he
      rw [ByteString.compare_eq_iff.1 heq]
      exact hx e he
    · rename_i hgt
      refine List.pairwise_cons.2 ⟨?_, ih hrest⟩
      intro e he
      rcases keys_putEntry key value rest e he with he | he
      · rw [he]; exact ByteString.lt_of_gt hgt
      · exact hx e he

/-! ## Tables -/

/-- Values under keys, listed in the order of the keys. -/
structure Table (α : Type) where
  entries : List (Hash × α)
  ascend : KeysAscend entries
deriving DecidableEq

namespace Table

variable {α : Type}

def empty : Table α := ⟨[], List.Pairwise.nil⟩

instance : Inhabited (Table α) := ⟨empty⟩

/-- Stores a value under a key, in place of the one that may be there. -/
def put (t : Table α) (key : Hash) (value : α) : Table α :=
  ⟨putEntry key value t.entries, keysAscend_putEntry key value t.entries t.ascend⟩

def erase (t : Table α) (key : Hash) : Table α :=
  ⟨t.entries.filter fun e => e.1 ≠ key, t.ascend.filter _⟩

/-- The table that pairs build one after the other, a later one taking the place of an earlier. -/
def ofEntries (entries : List (Hash × α)) : Table α :=
  entries.foldl (fun t e => t.put e.1 e.2) empty

def get? (t : Table α) (key : Hash) : Option α := t.entries.lookup key

def size (t : Table α) : Nat := t.entries.length

/-- The keys, in increasing order. -/
def keys (t : Table α) : List Hash := t.entries.map (·.1)

def toList (t : Table α) : List α := t.entries.map (·.2)

def contains (t : Table α) (key : Hash) : Bool := t.keys.contains key

theorem ext {s t : Table α} (h : s.entries = t.entries) : s = t := by
  cases s; cases t; simp_all

theorem keys_nodup (t : Table α) : t.keys.Nodup := by
  unfold keys List.Nodup
  rw [List.pairwise_map]
  apply t.ascend.imp
  intro a b hab heq
  rw [heq] at hab
  exact ByteString.lt_irrefl b.1 hab

@[simp] theorem contains_iff (t : Table α) (key : Hash) : t.contains key = true ↔ key ∈ t.keys := by
  simp [contains]

/-- A new key comes to the others. -/
theorem putEntry_perm (key : Hash) (value : α) (entries : List (Hash × α))
    (h : key ∉ entries.map (·.1)) : (putEntry key value entries).Perm ((key, value) :: entries) := by
  induction entries with
  | nil => exact List.Perm.refl _
  | cons x rest ih =>
    simp only [List.map_cons, List.mem_cons, not_or] at h
    simp only [putEntry]
    split
    · exact List.Perm.refl _
    · rename_i heq
      exact absurd (ByteString.compare_eq_iff.1 heq) h.1
    · exact ((ih h.2).cons x).trans (List.Perm.swap _ _ _)

theorem entries_put_perm (t : Table α) (key : Hash) (value : α) (h : key ∉ t.keys) :
    (t.put key value).entries.Perm ((key, value) :: t.entries) :=
  putEntry_perm key value t.entries h

/-- A key behind all others is put at the end. -/
theorem putEntry_last (key : Hash) (value : α) (entries : List (Hash × α))
    (h : ∀ e ∈ entries, e.1 < key) : putEntry key value entries = entries ++ [(key, value)] := by
  induction entries with
  | nil => rfl
  | cons x rest ih =>
    have hx : compare key x.1 = .gt := ByteString.gt_of_lt (h x List.mem_cons_self)
    simp only [putEntry, hx, List.cons_append, List.cons.injEq, true_and]
    exact ih fun e he => h e (List.mem_cons_of_mem _ he)

/-- The pairs of a table build it again. -/
theorem ofEntries_entries (t : Table α) : ofEntries t.entries = t := by
  have append : ∀ (later : List (Hash × α)) (s : Table α), KeysAscend (s.entries ++ later) →
      (later.foldl (fun t e => t.put e.1 e.2) s).entries = s.entries ++ later := by
    intro later
    induction later with
    | nil => intro s _; simp
    | cons x rest ih =>
      intro s h
      have hput : (s.put x.1 x.2).entries = s.entries ++ [x] :=
        putEntry_last x.1 x.2 s.entries fun e he =>
          (List.pairwise_append.1 h).2.2 e he x List.mem_cons_self
      rw [List.foldl_cons, ih (s.put x.1 x.2) (by rw [hput]; simpa using h), hput]
      simp
  exact ext (append t.entries empty t.ascend)

end Table

end Admission
