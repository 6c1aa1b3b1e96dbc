/-!
# Tables in the order of first insertion

A `Table` holds one value per key and keeps its keys in the order in which they were first
inserted: inserting an existing key writes the new value at the old place.

* `keys_insert`: the keys after an insertion are the old ones, then the new key if it was absent.
* `get?_insert`: the inserted key has the new value, every other key what it had.
* `get?_erase`: the erased key has no value, every other key what it had.
* `ext_get?`: a table is its keys in their order and what it answers.
-/

namespace Flowline

/-- One value per key, in the order of first insertion. -/
structure Table (κ α : Type) where
  /-- The keys with their values, in order. -/
  entries : List (κ × α)
  keys_nodup : (entries.map Prod.fst).Nodup
deriving DecidableEq

namespace Table

variable {κ α β : Type}

/-- The table without keys. -/
def empty : Table κ α := ⟨[], List.nodup_nil⟩

instance : EmptyCollection (Table κ α) := ⟨empty⟩

instance : Inhabited (Table κ α) := ⟨empty⟩

/-- The keys, in order. -/
def keys (t : Table κ α) : List κ := t.entries.map Prod.fst

/-- The values, in the order of their keys. -/
def values (t : Table κ α) : List α := t.entries.map Prod.snd

def size (t : Table κ α) : Nat := t.entries.length

def isEmpty (t : Table κ α) : Bool := t.entries.isEmpty

theorem eq_of_entries {t u : Table κ α} (h : t.entries = u.entries) : t = u := by
  obtain ⟨es, hes⟩ := t
  obtain ⟨fs, hfs⟩ := u
  cases h
  rfl

variable [DecidableEq κ]

/-! ## Looking up -/

/-- The value beside the first pair with key `k`. -/
def find (k : κ) : List (κ × α) → Option α
  | [] => none
  | (k', v) :: rest => if k' = k then some v else find k rest

def get? (t : Table κ α) (k : κ) : Option α := find k t.entries

def contains (t : Table κ α) (k : κ) : Bool := (t.get? k).isSome

/-! ## Writing -/

/-- Rewrites the value of `k` where it stands, or adds `k` at the end. The new value is made
from the old one, if there is one. -/
def place (k : κ) (f : Option α → α) : List (κ × α) → List (κ × α)
  | [] => [(k, f none)]
  | (k', v) :: rest => if k' = k then (k', f (some v)) :: rest else (k', v) :: place k f rest

theorem keys_place (k : κ) (f : Option α → α) (es : List (κ × α)) :
    (place k f es).map Prod.fst =
      if k ∈ es.map Prod.fst then es.map Prod.fst else es.map Prod.fst ++ [k] := by
  induction es with
  | nil => simp [place]
  | cons e rest ih =>
    obtain ⟨k', v⟩ := e
    by_cases h : k' = k
    · simp [place, h]
    · have h' : k ≠ k' := fun e => h e.symm
      simp only [place, h, if_false, List.map_cons, ih, List.mem_cons, h', false_or]
      split <;> simp

/-- The table after `k` got the value that `f` makes from its old one. -/
def alter (t : Table κ α) (k : κ) (f : Option α → α) : Table κ α where
  entries := place k f t.entries
  keys_nodup := by
    rw [keys_place]
    split
    · exact t.keys_nodup
    · next h =>
      rw [List.nodup_append]
      refine ⟨t.keys_nodup, by simp, fun a ha b hb => ?_⟩
      rw [List.mem_singleton] at hb
      exact fun hab => h (hb ▸ hab ▸ ha)

/-- Gives `k` the value `v`, at its old place if it has one. -/
def insert (t : Table κ α) (k : κ) (v : α) : Table κ α := t.alter k fun _ => v

/-- Adds `k` with the value `v` at the end, if it is absent. -/
def ensure (t : Table κ α) (k : κ) (v : α) : Table κ α := t.alter k fun old => old.getD v

/-- Inserts the pairs one after the other. -/
def insertAll (t : Table κ α) (pairs : List (κ × α)) : Table κ α :=
  pairs.foldl (fun t p => t.insert p.1 p.2) t

/-- The table without `k`. -/
def erase (t : Table κ α) (k : κ) : Table κ α where
  entries := t.entries.filter fun e => e.1 ≠ k
  keys_nodup := t.keys_nodup.sublist (List.filter_sublist.map _)

/-- The table of the pairs: a repeated key keeps its first place and takes its last value. -/
def ofList (pairs : List (κ × α)) : Table κ α := (empty : Table κ α).insertAll pairs

/-! ## What an insertion does to the view -/

theorem keys_alter (t : Table κ α) (k : κ) (f : Option α → α) :
    (t.alter k f).keys = if k ∈ t.keys then t.keys else t.keys ++ [k] :=
  keys_place k f t.entries

theorem keys_insert (t : Table κ α) (k : κ) (v : α) :
    (t.insert k v).keys = if k ∈ t.keys then t.keys else t.keys ++ [k] :=
  keys_alter t k _

theorem place_of_notMem {k : κ} (f : Option α → α) {es : List (κ × α)}
    (h : k ∉ es.map Prod.fst) : place k f es = es ++ [(k, f none)] := by
  induction es with
  | nil => rfl
  | cons e rest ih =>
    simp only [List.map_cons, List.mem_cons, not_or] at h
    rw [place, if_neg fun he => h.1 he.symm, ih h.2, List.cons_append]

theorem place_place (k : κ) (f g : Option α → α) (es : List (κ × α)) :
    place k g (place k f es) = place k (fun old => g (some (f old))) es := by
  induction es with
  | nil => simp [place]
  | cons e rest ih =>
    obtain ⟨k', v⟩ := e
    by_cases h : k' = k
    · simp [place, h]
    · simp only [place, h, if_false, ih]

/-- Writing a key twice is writing it once. -/
theorem alter_alter (t : Table κ α) (k : κ) (f g : Option α → α) :
    (t.alter k f).alter k g = t.alter k fun old => g (some (f old)) := by
  have h := place_place k f g t.entries
  unfold alter
  simp only [h]

/-- Writing keys that are absent adds them at the end, in their order. -/
theorem entries_foldl_alter {ι : Type} (key : ι → κ) (f : ι → Option α → α) (t : Table κ α)
    (items : List ι) (h : (t.keys ++ items.map key).Nodup) :
    (items.foldl (fun t i => t.alter (key i) (f i)) t).entries =
      t.entries ++ items.map fun i => (key i, f i none) := by
  induction items generalizing t with
  | nil => simp
  | cons i items ih =>
    have hkey : key i ∉ t.keys := fun hmem =>
      (List.nodup_append.1 h).2.2 _ hmem _ (by simp) rfl
    have halter : (t.alter (key i) (f i)).entries = t.entries ++ [(key i, f i none)] :=
      place_of_notMem _ hkey
    rw [List.foldl_cons, ih, halter, List.append_assoc]
    · rfl
    · rw [keys_alter, if_neg hkey, List.append_assoc]
      exact h

theorem ofList_entries (t : Table κ α) : ofList t.entries = t := by
  have h : ((empty : Table κ α).keys ++ t.entries.map Prod.fst).Nodup := t.keys_nodup
  refine eq_of_entries ((entries_foldl_alter Prod.fst (fun p _ => p.2) empty t.entries h).trans ?_)
  exact List.map_id' t.entries

theorem find_place (k k' : κ) (f : Option α → α) (es : List (κ × α)) :
    find k' (place k f es) = if k = k' then some (f (find k es)) else find k' es := by
  induction es with
  | nil => by_cases h : k = k' <;> simp [place, find, h]
  | cons e rest ih =>
    obtain ⟨a, v⟩ := e
    by_cases ha : a = k
    · by_cases h : k = k' <;> simp [place, find, ha, h]
    · by_cases h : k = k'
      · subst h
        simp [place, find, ih, ha]
      · simp [place, find, ha, ih, h]

theorem get?_alter (t : Table κ α) (k k' : κ) (f : Option α → α) :
    (t.alter k f).get? k' = if k = k' then some (f (t.get? k)) else t.get? k' :=
  find_place k k' f t.entries

theorem get?_insert (t : Table κ α) (k k' : κ) (v : α) :
    (t.insert k v).get? k' = if k = k' then some v else t.get? k' :=
  get?_alter t k k' _

theorem find_eq_none {k : κ} {es : List (κ × α)} (h : k ∉ es.map Prod.fst) : find k es = none := by
  induction es with
  | nil => rfl
  | cons e rest ih =>
    simp only [List.map_cons, List.mem_cons, not_or] at h
    rw [find, if_neg fun he => h.1 he.symm, ih h.2]

theorem isSome_find (k : κ) (es : List (κ × α)) :
    (find k es).isSome = true ↔ k ∈ es.map Prod.fst := by
  induction es with
  | nil => simp [find]
  | cons e rest ih =>
    obtain ⟨k', v⟩ := e
    by_cases h : k' = k
    · simp [find, h]
    · have h' : k ≠ k' := fun e => h e.symm
      rw [find, if_neg h, ih, List.map_cons, List.mem_cons]
      simp [h']

theorem contains_iff (t : Table κ α) (k : κ) : t.contains k = true ↔ k ∈ t.keys :=
  isSome_find k t.entries

theorem find_eq_some_iff {k : κ} {v : α} {es : List (κ × α)} (h : (es.map Prod.fst).Nodup) :
    find k es = some v ↔ (k, v) ∈ es := by
  induction es with
  | nil => simp [find]
  | cons e rest ih =>
    obtain ⟨k', v'⟩ := e
    obtain ⟨hnot, hrest⟩ := List.nodup_cons.1 h
    rw [find, List.mem_cons]
    by_cases hk : k' = k
    · subst hk
      have hrest' : (k', v) ∉ rest := fun hmem => hnot (List.mem_map.2 ⟨(k', v), hmem, rfl⟩)
      simp [hrest', eq_comm]
    · have hne : ¬ (k, v) = (k', v') := fun e => hk (Prod.mk.inj e).1.symm
      rw [if_neg hk, ih hrest]
      simp [hne]

theorem get?_eq_some_iff (t : Table κ α) (k : κ) (v : α) :
    t.get? k = some v ↔ (k, v) ∈ t.entries := find_eq_some_iff t.keys_nodup

theorem entries_ext {es fs : List (κ × α)} (hes : (es.map Prod.fst).Nodup)
    (hk : es.map Prod.fst = fs.map Prod.fst) (hf : ∀ k, find k es = find k fs) : es = fs := by
  induction es generalizing fs with
  | nil => exact (List.map_eq_nil_iff.1 hk.symm).symm
  | cons e es ih =>
    cases fs with
    | nil => cases hk
    | cons f fs =>
      obtain ⟨k, v⟩ := e
      obtain ⟨k', v'⟩ := f
      simp only [List.map_cons, List.cons.injEq] at hk
      obtain ⟨rfl, hk⟩ := hk
      have hv := hf k
      simp only [find, if_true, Option.some.injEq] at hv
      subst hv
      obtain ⟨hnot, hes⟩ := List.nodup_cons.1 hes
      refine congrArg _ (ih hes hk fun name => ?_)
      by_cases hn : k = name
      · subst hn
        rw [find_eq_none hnot, find_eq_none (hk ▸ hnot)]
      · simpa [find, hn] using hf name

/-- A table is its keys in their order and what it answers. -/
theorem ext_get? {t u : Table κ α} (hk : t.keys = u.keys) (h : ∀ k, t.get? k = u.get? k) :
    t = u := eq_of_entries (entries_ext t.keys_nodup hk h)

theorem find_filter (k k' : κ) (es : List (κ × α)) :
    find k' (es.filter fun e => e.1 ≠ k) = if k = k' then none else find k' es := by
  induction es with
  | nil => simp [find]
  | cons e rest ih =>
    obtain ⟨a, v⟩ := e
    by_cases ha : a = k
    · by_cases h : k = k' <;> simp_all [find]
    · by_cases h : k = k'
      · subst h
        simp_all [find]
      · simp_all [find]

theorem get?_erase (t : Table κ α) (k k' : κ) :
    (t.erase k).get? k' = if k = k' then none else t.get? k' :=
  find_filter k k' t.entries

end Table

end Flowline
