import Flowline.Json.Value

/-!
# The numbers in a value

`Json.numbers` are the numbers of a value in the order of the text, `Json.mapNumbers` replaces each
of them. A value is the same after the replacement if each of its numbers is
(`mapNumbers_eq_self`).

Lists and objects nest inside `Json`, so what holds of every value is proved by `Json.induction`.
-/

namespace Flowline

/-- Whether the number is an integer and no float. -/
def Number.isInteger : Number → Bool
  | .integer _ => true
  | .float _ => false

theorem Number.exists_eq_integer {n : Number} (h : n.isInteger = true) : ∃ i, n = .integer i := by
  cases n with
  | integer i => exact ⟨i, rfl⟩
  | float x => cases h

namespace Json

/-- What holds of the plain values, and of a list or an object if it holds of all in it, holds of
every value. -/
@[elab_as_elim]
theorem induction {P : Json → Prop} (null : P null) (bool : ∀ b, P (bool b))
    (number : ∀ n, P (number n)) (text : ∀ s, P (text s))
    (list : ∀ items, (∀ x ∈ items, P x) → P (list items))
    (object : ∀ members, (∀ e ∈ members, P e.2) → P (object members)) (j : Json) : P j :=
  Json.rec (motive_1 := P) (motive_2 := fun items => ∀ x ∈ items, P x)
    (motive_3 := fun members => ∀ e ∈ members, P e.2) (motive_4 := fun e => P e.2)
    null bool number text list object (fun _ hx => nomatch hx)
    (fun _ _ hx hxs => List.forall_mem_cons.2 ⟨hx, hxs⟩) (fun _ he => nomatch he)
    (fun _ _ he hes => List.forall_mem_cons.2 ⟨he, hes⟩) (fun _ _ hx => hx) j

/-! ## Definitions -/

mutual

/-- The numbers of a value, in order. -/
def numbers : Json → List Number
  | null | bool _ | text _ => []
  | number n => [n]
  | list items => numbersOfItems items
  | object members => numbersOfMembers members

def numbersOfItems : List Json → List Number
  | [] => []
  | x :: xs => numbers x ++ numbersOfItems xs

def numbersOfMembers : List (String × Json) → List Number
  | [] => []
  | (_, x) :: xs => numbers x ++ numbersOfMembers xs

end

mutual

/-- The value with `f` applied to each of its numbers. -/
def mapNumbers (f : Number → Number) : Json → Json
  | null => null
  | bool b => bool b
  | number n => number (f n)
  | text s => text s
  | list items => list (mapNumbersOfItems f items)
  | object members => object (mapNumbersOfMembers f members)

def mapNumbersOfItems (f : Number → Number) : List Json → List Json
  | [] => []
  | x :: xs => mapNumbers f x :: mapNumbersOfItems f xs

def mapNumbersOfMembers (f : Number → Number) : List (String × Json) → List (String × Json)
  | [] => []
  | (k, x) :: xs => (k, mapNumbers f x) :: mapNumbersOfMembers f xs

end

/-- The members with `f` applied to each of their numbers. -/
def mapNumbersBeside (f : Number → Number) (e : String × Json) : String × Json :=
  (e.1, e.2.mapNumbers f)

/-! ## The numbers of the parts -/

section Parts

variable {f : Number → Number}

@[simp] theorem numbers_null : null.numbers = [] := by rw [numbers]

@[simp] theorem numbers_text (s : String) : (text s).numbers = [] := by rw [numbers]

@[simp] theorem numbers_number (n : Number) : (number n).numbers = [n] := by rw [numbers]

@[simp] theorem numbers_list (items : List Json) :
    (list items).numbers = items.flatMap numbers := by
  rw [numbers]
  induction items with
  | nil => rfl
  | cons x xs ih => rw [numbersOfItems, ih, List.flatMap_cons]

@[simp] theorem numbers_object (members : List (String × Json)) :
    (object members).numbers = members.flatMap fun e => e.2.numbers := by
  rw [numbers]
  induction members with
  | nil => rfl
  | cons e es ih => rw [numbersOfMembers, ih, List.flatMap_cons]

@[simp] theorem mapNumbers_list (items : List Json) :
    (list items).mapNumbers f = list (items.map (mapNumbers f)) := by
  rw [mapNumbers]
  congr 1
  induction items with
  | nil => rfl
  | cons x xs ih => rw [mapNumbersOfItems, ih, List.map_cons]

@[simp] theorem mapNumbers_object (members : List (String × Json)) :
    (object members).mapNumbers f = object (members.map (mapNumbersBeside f)) := by
  rw [mapNumbers]
  congr 1
  induction members with
  | nil => rfl
  | cons e es ih =>
    rw [mapNumbersOfMembers, ih, List.map_cons]
    rfl

end Parts

/-- A value does not change if none of its numbers does. -/
theorem mapNumbers_eq_self {f : Number → Number} {j : Json} (h : ∀ n ∈ j.numbers, f n = n) :
    j.mapNumbers f = j := by
  induction j using Json.induction with
  | null => rfl
  | bool b => rfl
  | text s => rfl
  | number n => rw [mapNumbers, h n (by simp)]
  | list items ih =>
    have hitems : items.map (mapNumbers f) = items.map id := by
      refine List.map_congr_left fun x hx => ih x hx fun n hn => h n ?_
      exact numbers_list items ▸ List.mem_flatMap.2 ⟨x, hx, hn⟩
    rw [mapNumbers_list, hitems, List.map_id]
  | object members ih =>
    have hmembers : members.map (mapNumbersBeside f) = members.map id := by
      refine List.map_congr_left fun e he => Prod.ext rfl (ih e he fun n hn => h n ?_)
      exact numbers_object members ▸ List.mem_flatMap.2 ⟨e, he, hn⟩
    rw [mapNumbers_object, hmembers, List.map_id]

/-- The numbers after the replacement. -/
theorem mem_numbers_mapNumbers {f : Number → Number} {j : Json} {n : Number}
    (h : n ∈ (j.mapNumbers f).numbers) : ∃ m ∈ j.numbers, f m = n := by
  induction j using Json.induction with
  | null => simp [mapNumbers] at h
  | bool b => simp [mapNumbers, numbers] at h
  | text s => simp [mapNumbers] at h
  | number m =>
    rw [mapNumbers, numbers_number, List.mem_singleton] at h
    exact ⟨m, by simp, h.symm⟩
  | list items ih =>
    rw [mapNumbers_list, numbers_list, List.flatMap_map] at h
    obtain ⟨x, hx, h⟩ := List.mem_flatMap.1 h
    obtain ⟨m, hm, rfl⟩ := ih x hx h
    exact ⟨m, numbers_list items ▸ List.mem_flatMap.2 ⟨x, hx, hm⟩, rfl⟩
  | object members ih =>
    rw [mapNumbers_object, numbers_object, List.flatMap_map] at h
    obtain ⟨e, he, h⟩ := List.mem_flatMap.1 h
    obtain ⟨m, hm, rfl⟩ := ih e he h
    exact ⟨m, numbers_object members ▸ List.mem_flatMap.2 ⟨e, he, hm⟩, rfl⟩

end Json

end Flowline
