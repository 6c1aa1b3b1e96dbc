import Flowline.Json.Reader
import Flowline.Proofs.Json.Numbers
import Flowline.Proofs.Json.Scanned
import Flowline.Proofs.Except
import Flowline.Proofs.Maps

/-!
# Values that are not looked into

A value that is read whole comes out with the members of every object sorted and each name once:
`Json.sorted` is the value as it comes out, `Json.depth` how deep its lists and objects nest. A
written value is read whole exactly as far as the mode allows its depth (`opaqueValue_ofJson`).
What is read so is sorted already and not deeper than the mode allows (`isOpaque_of_opaqueValue`),
so it is read back as it is.
-/

namespace Flowline

namespace Json

/-! ## Sorted members and depth -/

mutual

/-- The value with the members of every object in the order of their names. -/
def sorted : Json → Json
  | null => null
  | bool b => bool b
  | number n => number n
  | text s => text s
  | list items => list (sortedItems items)
  | object members => ofNameMap (.ofList (sortedMembers members))

def sortedItems : List Json → List Json
  | [] => []
  | x :: xs => sorted x :: sortedItems xs

def sortedMembers : List (String × Json) → List (String × Json)
  | [] => []
  | (k, x) :: xs => (k, sorted x) :: sortedMembers xs

end

mutual

/-- How many lists and objects nest. -/
def depth : Json → Nat
  | null | bool _ | number _ | text _ => 0
  | list items => depthOfItems items + 1
  | object members => depthOfMembers members + 1

def depthOfItems : List Json → Nat
  | [] => 0
  | x :: xs => max (depth x) (depthOfItems xs)

def depthOfMembers : List (String × Json) → Nat
  | [] => 0
  | (_, x) :: xs => max (depth x) (depthOfMembers xs)

end

theorem sortedItems_eq (items : List Json) : sortedItems items = items.map sorted := by
  induction items with
  | nil => rfl
  | cons x xs ih => rw [sortedItems, ih, List.map_cons]

theorem sortedMembers_eq (members : List (String × Json)) :
    sortedMembers members = members.map fun e => (e.1, e.2.sorted) := by
  induction members with
  | nil => rfl
  | cons e es ih => rw [sortedMembers, ih, List.map_cons]

theorem depthOfItems_le {items : List Json} {d : Nat} :
    depthOfItems items ≤ d ↔ ∀ x ∈ items, x.depth ≤ d := by
  induction items with
  | nil => simp [depthOfItems]
  | cons x xs ih => rw [depthOfItems, Nat.max_le, ih, List.forall_mem_cons]

theorem depthOfMembers_le {members : List (String × Json)} {d : Nat} :
    depthOfMembers members ≤ d ↔ ∀ e ∈ members, e.2.depth ≤ d := by
  induction members with
  | nil => simp [depthOfMembers]
  | cons e es ih => rw [depthOfMembers, Nat.max_le, ih, List.forall_mem_cons]

theorem depth_list_le {items : List Json} {d : Nat} :
    (list items).depth ≤ d + 1 ↔ ∀ x ∈ items, x.depth ≤ d := by
  rw [depth, Nat.add_le_add_iff_right, depthOfItems_le]

theorem depth_object_le {members : List (String × Json)} {d : Nat} :
    (object members).depth ≤ d + 1 ↔ ∀ e ∈ members, e.2.depth ≤ d := by
  rw [depth, Nat.add_le_add_iff_right, depthOfMembers_le]

/-- A map of sorted values is sorted. -/
theorem sorted_ofNameMap {m : NameMap Json} (h : ∀ e ∈ m.entries, e.2.sorted = e.2) :
    (ofNameMap m).sorted = ofNameMap m := by
  have hentries : m.entries.map (fun e => (e.1, e.2.sorted)) = m.entries.map id :=
    List.map_congr_left fun e he => Prod.ext rfl (h e he)
  rw [ofNameMap, sorted, sortedMembers_eq, hentries, List.map_id, NameMap.ofList_entries, ofNameMap]

/-- Sorted members are in the order of their names, and their values are sorted. -/
theorem sorted_object_iff {members : List (String × Json)} :
    (object members).sorted = object members ↔
      members.Pairwise (fun a b => a.1 < b.1) ∧ ∀ e ∈ members, e.2.sorted = e.2 := by
  rw [sorted, sortedMembers_eq, ofNameMap, object.injEq]
  constructor
  · intro h
    have hpairwise : members.Pairwise fun a b => a.1 < b.1 := h ▸ NameMap.sorted _
    have hmap : (members.map fun e => (e.1, e.2.sorted)).Pairwise fun a b => a.1 < b.1 :=
      List.pairwise_map.2 hpairwise
    rw [NameMap.entries_ofList hmap] at h
    refine ⟨hpairwise, fun e he => ?_⟩
    have hself := List.map_inj_left.1 (h.trans (List.map_id members).symm) e he
    exact congrArg Prod.snd hself
  · rintro ⟨hpairwise, hvalues⟩
    have hmap : members.map (fun e => (e.1, e.2.sorted)) = members.map id :=
      List.map_congr_left fun e he => Prod.ext rfl (hvalues e he)
    rw [hmap, List.map_id, NameMap.entries_ofList hpairwise]

theorem sorted_list_iff {items : List Json} :
    (list items).sorted = list items ↔ ∀ x ∈ items, x.sorted = x := by
  rw [sorted, sortedItems_eq, list.injEq]
  constructor
  · intro h x hx
    exact List.map_inj_left.1 (h.trans (List.map_id items).symm) x hx
  · intro h
    exact (List.map_congr_left h).trans (List.map_id items)

section Numbers

variable {f : Number → Number} {j : Json}

/-- Other numbers leave a value sorted. -/
theorem sorted_mapNumbers (h : j.sorted = j) : (j.mapNumbers f).sorted = j.mapNumbers f := by
  induction j using Json.induction with
  | null => rfl
  | bool b => rfl
  | number n => rfl
  | text s => rfl
  | list items ih =>
    rw [mapNumbers_list, sorted_list_iff, List.forall_mem_map]
    exact fun x hx => ih x hx (sorted_list_iff.1 h x hx)
  | object members ih =>
    obtain ⟨hpairwise, hvalues⟩ := sorted_object_iff.1 h
    rw [mapNumbers_object, sorted_object_iff, List.forall_mem_map]
    exact ⟨List.pairwise_map.2 hpairwise, fun e he => ih e he (hvalues e he)⟩

/-- Other numbers leave the depth of a value. -/
theorem depth_mapNumbers_le {d : Nat} (h : j.depth ≤ d) : (j.mapNumbers f).depth ≤ d := by
  induction j using Json.induction generalizing d with
  | null => exact h
  | bool b => exact h
  | number n => exact h
  | text s => exact h
  | list items ih =>
    obtain ⟨d, rfl⟩ : ∃ n, d = n + 1 := ⟨d - 1, by rw [depth] at h; omega⟩
    rw [mapNumbers_list, depth_list_le, List.forall_mem_map]
    exact fun x hx => ih x hx (depth_list_le.1 h x hx)
  | object members ih =>
    obtain ⟨d, rfl⟩ : ∃ n, d = n + 1 := ⟨d - 1, by rw [depth] at h; omega⟩
    rw [mapNumbers_object, depth_object_le, List.forall_mem_map]
    exact fun e he => ih e he (depth_object_le.1 h e he)

end Numbers

/-! ## Modes -/

/-- The mode lets lists and objects nest so deep. In a buffer, which has been gone through before,
nothing is too deep. -/
def Mode.Allows (mode : Mode) (depth : Nat) : Prop := mode.buffered = false → depth ≤ mode.depth

theorem Mode.Allows.mono {mode : Mode} {d d' : Nat} (h : mode.Allows d') (hd : d ≤ d') :
    mode.Allows d := fun hbuffered => Nat.le_trans hd (h hbuffered)

theorem Mode.allows_again (mode : Mode) (d : Nat) : mode.again.Allows d := fun h => nomatch h

theorem Mode.exists_enter {mode : Mode} {d : Nat} (h : mode.Allows (d + 1)) :
    ∃ inner, mode.enter = .ok inner ∧ inner.Allows d := by
  obtain ⟨buffered, depth⟩ := mode
  cases buffered with
  | true => exact ⟨_, rfl, fun h => nomatch h⟩
  | false =>
    have hdepth : d + 1 ≤ depth := h rfl
    obtain ⟨depth, rfl⟩ : ∃ n, depth = n + 1 := ⟨depth - 1, by omega⟩
    exact ⟨_, rfl, fun _ => Nat.le_of_succ_le_succ hdepth⟩

/-- What a list or an object allows in it, it allows one level less. -/
theorem Mode.allows_of_enter {mode inner : Mode} (h : mode.enter = .ok inner) {d : Nat}
    (hd : inner.Allows d) : mode.Allows (d + 1) := by
  obtain ⟨buffered, depth⟩ := mode
  cases buffered with
  | true => exact fun h => nomatch h
  | false =>
    cases depth with
    | zero => cases h
    | succ depth =>
      cases h
      exact fun _ => Nat.succ_le_succ (hd rfl)

/-! ## Reading a written value whole -/

section Writing

variable {mode : Mode}

theorem opaqueValues_ofList {items : List Json}
    (h : ∀ x ∈ items, (Node.ofJson x).opaqueValue mode = .ok x.sorted) :
    (Items.ofList items).opaqueValues mode = .ok (items.map sorted) := by
  induction items with
  | nil => rfl
  | cons x xs ih =>
    obtain ⟨hx, hxs⟩ := List.forall_mem_cons.1 h
    simp only [Items.ofList, Items.opaqueValues, hx, ih hxs, bind, Except.bind]
    rfl

theorem opaqueValues_ofMembers {members : List (String × Json)}
    (h : ∀ e ∈ members, (Node.ofJson e.2).opaqueValue mode = .ok e.2.sorted) :
    (Members.ofList members).opaqueValues mode =
      .ok (members.map fun e => (e.1, e.2.sorted)) := by
  induction members with
  | nil => rfl
  | cons e es ih =>
    obtain ⟨hx, hes⟩ := List.forall_mem_cons.1 h
    simp only [Members.ofList, Members.opaqueValues, Token.good, Break.fault, hx, ih hes, bind,
      Except.bind]
    rfl

end Writing

/-- A written value is read whole, if its depth is allowed. -/
theorem opaqueValue_ofJson {j : Json} {mode : Mode} (h : mode.Allows j.depth) :
    (Node.ofJson j).opaqueValue mode = .ok j.sorted := by
  induction j using Json.induction generalizing mode with
  | null => rfl
  | bool b => rfl
  | number n => rfl
  | text s => rfl
  | list items ih =>
    obtain ⟨inner, henter, hinner⟩ := Mode.exists_enter h
    have hitems : (Items.ofList items).opaqueValues inner = .ok (items.map sorted) :=
      opaqueValues_ofList fun x hx =>
        ih x hx (hinner.mono (depthOfItems_le.1 (Nat.le_refl _) x hx))
    simp only [Node.ofJson, Node.opaqueValue, henter, hitems, bind, Except.bind]
    rw [sorted, sortedItems_eq]
    rfl
  | object members ih =>
    obtain ⟨inner, henter, hinner⟩ := Mode.exists_enter h
    have hmembers : (Members.ofList members).opaqueValues inner =
        .ok (members.map fun e => (e.1, e.2.sorted)) :=
      opaqueValues_ofMembers fun e he =>
        ih e he (hinner.mono (depthOfMembers_le.1 (Nat.le_refl _) e he))
    simp only [Node.ofJson, Node.opaqueValue, henter, hmembers, bind, Except.bind]
    rw [sorted, sortedMembers_eq]
    rfl

/-! ## What is read whole -/

/-- What comes out when a value is read whole: sorted objects, no deeper than the mode allows,
numbers that can be written. -/
structure IsOpaque (mode : Mode) (j : Json) : Prop where
  sorted : j.sorted = j
  depth : mode.Allows j.depth
  numbers : ∀ n ∈ j.numbers, n.IsScanned

theorem isOpaque_list {mode inner : Mode} (henter : mode.enter = .ok inner) {items : List Json}
    (h : ∀ x ∈ items, IsOpaque inner x) : IsOpaque mode (list items) where
  sorted := by
    have hitems : items.map Json.sorted = items.map id :=
      List.map_congr_left fun x hx => (h x hx).sorted
    rw [Json.sorted, sortedItems_eq, hitems, List.map_id]
  depth := Mode.allows_of_enter henter fun hbuffered =>
    depthOfItems_le.2 fun x hx => (h x hx).depth hbuffered
  numbers := by
    rw [numbers_list]
    intro n hn
    obtain ⟨x, hx, hn⟩ := List.mem_flatMap.1 hn
    exact (h x hx).numbers n hn

theorem isOpaque_object {mode inner : Mode} (henter : mode.enter = .ok inner)
    {members : List (String × Json)} (h : ∀ e ∈ members, IsOpaque inner e.2) :
    IsOpaque mode (ofNameMap (.ofList members)) := by
  have hentries : ∀ e ∈ (NameMap.ofList members).entries, IsOpaque inner e.2 :=
    fun e he => h e (NameMap.mem_of_mem_ofList he)
  refine ⟨sorted_ofNameMap fun e he => (hentries e he).sorted,
    Mode.allows_of_enter henter fun hbuffered => ?_, fun n hn => ?_⟩
  · exact depthOfMembers_le.2 fun e he => (hentries e he).depth hbuffered
  · rw [ofNameMap, numbers_object] at hn
    obtain ⟨e, he, hn⟩ := List.mem_flatMap.1 hn
    exact (hentries e he).numbers n hn

theorem fault_eq_ok {α : Type} {x : Except Break α} {a : α} (h : Break.fault x = .ok a) :
    x = .ok a := by
  cases x with
  | error b => cases h
  | ok a' =>
    cases h
    rfl

mutual

/-- Whatever is read whole is sorted, allowed by the mode, and holds only numbers that can be
written. -/
theorem isOpaque_of_opaqueValue {mode : Mode} : ∀ {node : Node} {j : Json}, node.IsScanned →
    node.opaqueValue mode = .ok j → IsOpaque mode j
  | .absent _, _, _, h | .word _, _, _, h => nomatch h
  | .null, _, _, h => by
    cases h
    exact ⟨rfl, fun _ => Nat.zero_le _, by simp⟩
  | .bool _, _, _, h => by
    cases h
    exact ⟨rfl, fun _ => Nat.zero_le _, by simp [numbers]⟩
  | .number token, _, hnode, h => by
    obtain ⟨n, hn, rfl⟩ := map_eq_ok h
    refine ⟨rfl, fun _ => Nat.zero_le _, ?_⟩
    simpa using hnode n (fault_eq_ok hn)
  | .text token, _, _, h => by
    obtain ⟨s, -, rfl⟩ := map_eq_ok h
    exact ⟨rfl, fun _ => Nat.zero_le _, by simp⟩
  | .list items, _, hnode, h => by
    obtain ⟨inner, henter, h⟩ := bind_eq_ok h
    obtain ⟨values, hvalues, h⟩ := bind_eq_ok h
    cases h
    exact isOpaque_list henter (isOpaque_of_opaqueValues hnode hvalues)
  | .object members, _, hnode, h => by
    obtain ⟨inner, henter, h⟩ := bind_eq_ok h
    obtain ⟨values, hvalues, h⟩ := bind_eq_ok h
    cases h
    exact isOpaque_object henter (isOpaque_of_opaqueMembers hnode hvalues)

theorem isOpaque_of_opaqueValues {mode : Mode} : ∀ {items : Items} {values : List Json},
    items.IsScanned → items.opaqueValues mode = .ok values → ∀ x ∈ values, IsOpaque mode x
  | .close, _, _, h => by
    cases h
    exact fun _ hx => nomatch hx
  | .broken _, _, _, h => nomatch h
  | .item value rest, _, hitems, h => by
    obtain ⟨x, hx, h⟩ := bind_eq_ok h
    obtain ⟨xs, hxs, h⟩ := bind_eq_ok h
    cases h
    exact List.forall_mem_cons.2 ⟨isOpaque_of_opaqueValue hitems.1 hx,
      isOpaque_of_opaqueValues hitems.2 hxs⟩

theorem isOpaque_of_opaqueMembers {mode : Mode} :
    ∀ {members : Members} {values : List (String × Json)}, members.IsScanned →
      members.opaqueValues mode = .ok values → ∀ e ∈ values, IsOpaque mode e.2
  | .close, _, _, h => by
    cases h
    exact fun _ hx => nomatch hx
  | .broken _, _, _, h | .noKey _, _, _, h => nomatch h
  | .member key value rest, _, hmembers, h => by
    obtain ⟨k, -, h⟩ := bind_eq_ok h
    obtain ⟨x, hx, h⟩ := bind_eq_ok h
    obtain ⟨xs, hxs, h⟩ := bind_eq_ok h
    cases h
    exact List.forall_mem_cons.2 ⟨isOpaque_of_opaqueValue hmembers.1 hx,
      isOpaque_of_opaqueMembers hmembers.2 hxs⟩

end

/-- Other numbers that can be written leave a value opaque. -/
theorem IsOpaque.mapNumbers {mode : Mode} {j : Json} (h : IsOpaque mode j) {f : Number → Number}
    (hf : ∀ n ∈ j.numbers, (f n).IsScanned) : IsOpaque mode (j.mapNumbers f) where
  sorted := sorted_mapNumbers h.sorted
  depth hbuffered := depth_mapNumbers_le (h.depth hbuffered)
  numbers n hn := by
    obtain ⟨m, hm, rfl⟩ := mem_numbers_mapNumbers hn
    exact hf m hm

end Json

end Flowline
