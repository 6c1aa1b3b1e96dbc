/-!
# Maps from names, in the order of the names

A `NameMap` holds one value per name, its names strictly increasing (by code points, which is
also the order of their UTF-8 bytes). Two maps with the same answers are therefore equal.

* `get?_alter`: writing changes the answer for the written name only.
* `ext_get?`: a map is what it answers.
-/

namespace Flowline

/-- One value per name, in the order of the names. -/
structure NameMap (α : Type) where
  /-- The names with their values, in order. -/
  entries : List (String × α)
  sorted : entries.Pairwise fun a b => a.1 < b.1
deriving DecidableEq

namespace NameMap

variable {α β : Type}

/-- The map without names. -/
def empty : NameMap α := ⟨[], List.Pairwise.nil⟩

instance : EmptyCollection (NameMap α) := ⟨empty⟩

instance : Inhabited (NameMap α) := ⟨empty⟩

def names (m : NameMap α) : List String := m.entries.map Prod.fst

def values (m : NameMap α) : List α := m.entries.map Prod.snd

def size (m : NameMap α) : Nat := m.entries.length

def isEmpty (m : NameMap α) : Bool := m.entries.isEmpty

/-! ## Looking up -/

/-- The value beside the first pair with the name. -/
def find (name : String) : List (String × α) → Option α
  | [] => none
  | (n, v) :: rest => if n = name then some v else find name rest

def get? (m : NameMap α) (name : String) : Option α := find name m.entries

def contains (m : NameMap α) (name : String) : Bool := (m.get? name).isSome

/-! ## Writing -/

/-- Rewrites the value of `name`, or puts the name where it belongs. The new value is made from
the old one, if there is one. -/
def place (name : String) (f : Option α → α) : List (String × α) → List (String × α)
  | [] => [(name, f none)]
  | (n, v) :: rest =>
    if name < n then (name, f none) :: (n, v) :: rest
    else if n = name then (n, f (some v)) :: rest
    else (n, v) :: place name f rest

theorem fst_mem_place {name : String} {f : Option α → α} {es : List (String × α)}
    {e : String × α} (h : e ∈ place name f es) : e.1 = name ∨ ∃ e' ∈ es, e'.1 = e.1 := by
  induction es with
  | nil => simp only [place, List.mem_singleton] at h; simp [h]
  | cons a rest ih =>
    simp only [place] at h
    split at h
    · rcases List.mem_cons.1 h with rfl | h
      · exact .inl rfl
      · exact .inr ⟨e, h, rfl⟩
    · split at h
      · rcases List.mem_cons.1 h with rfl | h
        · exact .inr ⟨a, List.mem_cons_self, rfl⟩
        · exact .inr ⟨e, List.mem_cons_of_mem _ h, rfl⟩
      · rcases List.mem_cons.1 h with rfl | h
        · exact .inr ⟨a, List.mem_cons_self, rfl⟩
        · rcases ih h with h | ⟨e', he', h⟩
          · exact .inl h
          · exact .inr ⟨e', List.mem_cons_of_mem _ he', h⟩

theorem sorted_place (name : String) (f : Option α → α) {es : List (String × α)}
    (h : es.Pairwise fun a b => a.1 < b.1) : (place name f es).Pairwise fun a b => a.1 < b.1 := by
  induction es with
  | nil => simp [place]
  | cons a rest ih =>
    obtain ⟨n, v⟩ := a
    have hrest := List.pairwise_cons.1 h
    simp only [place]
    split
    · next hlt =>
      refine List.pairwise_cons.2 ⟨fun b hb => ?_, h⟩
      rcases List.mem_cons.1 hb with rfl | hb
      · exact hlt
      · exact String.lt_trans hlt (hrest.1 b hb)
    · next hnlt =>
      split
      · exact List.pairwise_cons.2 ⟨hrest.1, hrest.2⟩
      · next hne =>
        refine List.pairwise_cons.2 ⟨fun b hb => ?_, ih hrest.2⟩
        rcases fst_mem_place hb with hb | ⟨e, he, heq⟩
        · show n < b.1
          rw [hb]
          exact Std.lt_of_le_of_ne hnlt hne
        · have := hrest.1 e he
          rw [heq] at this
          exact this

/-- The map after `name` got the value that `f` makes from its old one. -/
def alter (m : NameMap α) (name : String) (f : Option α → α) : NameMap α :=
  ⟨place name f m.entries, sorted_place name f m.sorted⟩

def insert (m : NameMap α) (name : String) (v : α) : NameMap α := m.alter name fun _ => v

/-- The map without the name. -/
def erase (m : NameMap α) (name : String) : NameMap α :=
  ⟨m.entries.filter fun e => e.1 ≠ name, m.sorted.filter _⟩

/-- The map of the pairs: of a repeated name the last value counts. -/
def ofList (pairs : List (String × α)) : NameMap α :=
  pairs.foldl (fun m p => m.insert p.1 p.2) empty

/-- The map with `f` applied to every value. -/
def mapValues (f : α → β) (m : NameMap α) : NameMap β where
  entries := m.entries.map fun e => (e.1, f e.2)
  sorted := by
    rw [List.pairwise_map]
    exact m.sorted

/-! ## What the operations do to the answers -/

theorem find_eq_none {name : String} {es : List (String × α)}
    (h : ∀ e ∈ es, name < e.1) : find name es = none := by
  induction es with
  | nil => rfl
  | cons a rest ih =>
    have : a.1 ≠ name := fun e => String.lt_irrefl name (e ▸ h a List.mem_cons_self)
    rw [find, if_neg this]
    exact ih fun e he => h e (List.mem_cons_of_mem _ he)

/-- What comes before the first name of sorted pairs is not among them. -/
theorem find_cons_eq_none {name : String} {a : String × α} {rest : List (String × α)}
    (hsorted : (a :: rest).Pairwise fun a b => a.1 < b.1) (hlt : name < a.1) :
    find name (a :: rest) = none := by
  refine find_eq_none fun e he => ?_
  rcases List.mem_cons.1 he with rfl | he
  · exact hlt
  · exact String.lt_trans hlt ((List.pairwise_cons.1 hsorted).1 e he)

theorem find_place (name name' : String) (f : Option α → α) {es : List (String × α)}
    (h : es.Pairwise fun a b => a.1 < b.1) :
    find name' (place name f es) =
      if name = name' then some (f (find name es)) else find name' es := by
  induction es with
  | nil => by_cases hn : name = name' <;> simp [place, find, hn]
  | cons a rest ih =>
    obtain ⟨n, v⟩ := a
    have hrest := List.pairwise_cons.1 h
    simp only [place]
    split
    · next hlt => rw [find_cons_eq_none h hlt, find]
    · split
      · next hnlt hn =>
        subst hn
        by_cases hn' : n = name' <;> simp [find, hn']
      · next hnlt hn =>
        rw [find, find, ih hrest.2]
        by_cases hn' : n = name'
        · have : ¬name = name' := fun e => hn (hn'.trans e.symm)
          simp [find, hn', this]
        · simp [find, hn, hn']

theorem get?_alter (m : NameMap α) (name name' : String) (f : Option α → α) :
    (m.alter name f).get? name' = if name = name' then some (f (m.get? name)) else m.get? name' :=
  find_place name name' f m.sorted

theorem get?_insert (m : NameMap α) (name name' : String) (v : α) :
    (m.insert name v).get? name' = if name = name' then some v else m.get? name' :=
  get?_alter m name name' fun _ => v

theorem isSome_find (name : String) (es : List (String × α)) :
    (find name es).isSome = true ↔ name ∈ es.map Prod.fst := by
  induction es with
  | nil => simp [find]
  | cons a rest ih =>
    obtain ⟨n, v⟩ := a
    by_cases h : n = name
    · simp [find, h]
    · have h' : name ≠ n := fun e => h e.symm
      rw [find, if_neg h, ih, List.map_cons, List.mem_cons]
      simp [h']

theorem isSome_get? (m : NameMap α) (name : String) :
    (m.get? name).isSome = true ↔ name ∈ m.names := isSome_find name m.entries

theorem find_filter (name name' : String) (es : List (String × α)) :
    find name' (es.filter fun e => e.1 ≠ name) = if name = name' then none else find name' es := by
  induction es with
  | nil => simp [find]
  | cons a rest ih =>
    obtain ⟨n, v⟩ := a
    by_cases hn : n = name
    · subst hn
      by_cases hn' : n = name'
      · simp_all
      · simp_all [find]
    · by_cases hn' : name = name'
      · subst hn'
        simp_all [find]
      · simp_all [find]

theorem get?_erase (m : NameMap α) (name name' : String) :
    (m.erase name).get? name' = if name = name' then none else m.get? name' :=
  find_filter name name' m.entries

/-- The first name of some pairs does not come before that of sorted pairs with the same answer. -/
theorem not_lt_of_find_eq {a b : String × α} {es fs : List (String × α)}
    (hfs : (b :: fs).Pairwise fun a b => a.1 < b.1)
    (h : find a.1 (a :: es) = find a.1 (b :: fs)) : ¬ a.1 < b.1 := by
  intro hlt
  rw [find_cons_eq_none hfs hlt, find, if_pos rfl] at h
  cases h

/-- Sorted pair lists with the same answers are equal. -/
theorem entries_ext {es fs : List (String × α)} (hes : es.Pairwise fun a b => a.1 < b.1)
    (hfs : fs.Pairwise fun a b => a.1 < b.1) (h : ∀ name, find name es = find name fs) :
    es = fs := by
  induction es generalizing fs with
  | nil =>
    cases fs with
    | nil => rfl
    | cons b fs => simpa [find] using h b.1
  | cons a es ih =>
    cases fs with
    | nil => simpa [find] using h a.1
    | cons b fs =>
      have ha := List.pairwise_cons.1 hes
      have hb := List.pairwise_cons.1 hfs
      have hname : a.1 = b.1 := String.le_antisymm (not_lt_of_find_eq hes (h b.1).symm)
        (not_lt_of_find_eq hfs (h a.1))
      have hvalue : a.2 = b.2 := by
        have hfind := h a.1
        rwa [find, find, if_pos rfl, if_pos hname.symm, Option.some_inj] at hfind
      obtain rfl : a = b := Prod.ext hname hvalue
      refine congrArg _ (ih ha.2 hb.2 fun name => ?_)
      by_cases hn : a.1 = name
      · subst hn
        rw [find_eq_none ha.1, find_eq_none hb.1]
      · have hfind := h name
        rwa [find, find, if_neg hn, if_neg hn] at hfind

/-- A map is what it answers. -/
theorem ext_get? {m n : NameMap α} (h : ∀ name, m.get? name = n.get? name) : m = n := by
  obtain ⟨es, hes⟩ := m
  obtain ⟨fs, hfs⟩ := n
  have := entries_ext hes hfs h
  subst this
  rfl

end NameMap

end Flowline
