import Flowline.Json.Record
import Flowline.Proofs.Json.Opaque

/-!
# What readers accept

`Reader.Yields r P` says that whatever the reader makes of a text has the property `P`. As for
reading, there is one lemma for each way of making readers. Every value of a record is either the
one of an absent field or has been read by the field's reader (`Fields.Came`, `came_record`).
-/

namespace Flowline.Json

/-- What the reader makes of a value of a text has the property, which may depend on the mode. -/
def Reader.Yields {α : Type} (r : Reader α) (P : Mode → α → Prop) : Prop :=
  ∀ mode node a, node.IsScanned → r mode node = .ok a → P mode a

section Plain

variable {α β : Type} {r : Reader α} {P : Mode → α → Prop}

theorem Reader.Yields.map (h : r.Yields P) {f : α → β} {Q : Mode → β → Prop}
    (hf : ∀ mode a, P mode a → Q mode (f a)) : (r.map f).Yields Q := by
  intro mode node b hnode hb
  obtain ⟨a, ha, rfl⟩ := map_eq_ok hb
  exact hf mode a (h mode node a hnode ha)

/-- What a reader makes has, after a function, the property that all values of it have. -/
theorem yields_map_of_forall {f : α → β} {Q : β → Prop} (h : ∀ a, Q (f a)) :
    (r.map f).Yields fun _ => Q := by
  intro mode node b _ hb
  obtain ⟨a, -, rfl⟩ := map_eq_ok hb
  exact h a

theorem wrongType_ne_ok {expected : String} {node : Node} {a : α} :
    wrongType expected node ≠ .ok a := by
  intro h
  obtain ⟨found, -, h⟩ := bind_eq_ok h
  cases h

theorem yields_integer (low high : Int) (expected : String) :
    (Reader.integer low high expected).Yields fun _ n => low ≤ n ∧ n ≤ high := by
  intro mode node n _ h
  unfold Reader.integer at h
  split at h
  · obtain ⟨x, -, h⟩ := bind_eq_ok h
    split at h
    · split at h
      · next hn =>
        cases h
        exact hn
      · cases h
    · cases h
  · exact absurd h wrongType_ne_ok

theorem yields_natural (high : Nat) (expected : String) :
    (Reader.natural high expected).Yields fun _ n => n ≤ high :=
  (yields_integer 0 high expected).map fun _ _ hn => by omega

theorem Reader.Yields.optional (h : r.Yields P) :
    r.optional.Yields fun mode o => ∀ a ∈ o, P mode a := by
  intro mode node o hnode ho
  unfold Reader.optional at ho
  split at ho
  · cases ho
    exact fun _ ha => nomatch ha
  · obtain ⟨a, ha, rfl⟩ := map_eq_ok ho
    intro a' ha'
    cases ha'
    exact h mode _ a hnode ha

theorem yields_any : Reader.any.Yields IsOpaque := fun _ _ _ hnode h =>
  isOpaque_of_opaqueValue hnode h

theorem yields_readMembers {mode : Mode} (h : r.Yields P) : ∀ {members : Members}
    {es : List (String × α)}, members.IsScanned → readMembers .ok (r mode) members = .ok es →
      ∀ e ∈ es, P mode e.2
  | .close, _, _, hes => by
    cases hes
    exact fun _ he => nomatch he
  | .broken _, _, _, hes | .noKey _, _, _, hes => nomatch hes
  | .member key value rest, _, hmembers, hes => by
    obtain ⟨k, -, hes⟩ := bind_eq_ok hes
    obtain ⟨k, -, hes⟩ := bind_eq_ok hes
    obtain ⟨x, hx, hes⟩ := bind_eq_ok hes
    obtain ⟨xs, hxs, hes⟩ := bind_eq_ok hes
    cases hes
    exact List.forall_mem_cons.2
      ⟨h mode value x hmembers.1 hx, yields_readMembers h hmembers.2 hxs⟩

theorem Reader.Yields.table (h : r.Yields P) :
    r.table.Yields fun mode t =>
      ∀ e ∈ t.entries, ∃ inner, mode.enter = .ok inner ∧ P inner e.2 := by
  intro mode node t hnode ht
  obtain ⟨es, hes, rfl⟩ := map_eq_ok ht
  unfold Reader.members at hes
  split at hes
  · obtain ⟨inner, henter, hes⟩ := bind_eq_ok hes
    exact fun e he =>
      ⟨inner, henter, yields_readMembers h hnode hes e (Table.mem_of_mem_ofList he)⟩
  · exact absurd hes wrongType_ne_ok

theorem Reader.Yields.nameMap (h : r.Yields P) :
    r.nameMap.Yields fun mode m =>
      ∀ e ∈ m.entries, ∃ inner, mode.enter = .ok inner ∧ P inner e.2 := by
  intro mode node m hnode hm
  obtain ⟨es, hes, rfl⟩ := map_eq_ok hm
  unfold Reader.members at hes
  split at hes
  · obtain ⟨inner, henter, hes⟩ := bind_eq_ok hes
    exact fun e he =>
      ⟨inner, henter, yields_readMembers h hnode hes e (NameMap.mem_of_mem_ofList he)⟩
  · exact absurd hes wrongType_ne_ok

/-- What one of several readers makes has the property if what each of them makes has it. -/
theorem yields_forms {type : String} {readers : List (Reader α)} {Q : α → Prop}
    (h : ∀ r ∈ readers, r.Yields fun _ => Q) : (Reader.forms type readers).Yields fun _ => Q := by
  intro mode node a hnode ha
  obtain ⟨_, -, ha⟩ := bind_eq_ok ha
  dsimp only at ha
  split at ha
  · next a' hfind =>
    cases ha
    obtain ⟨r, hr, hread⟩ := List.exists_of_findSome?_eq_some hfind
    exact h r hr mode.again node a hnode (toOption_eq_some_iff.1 hread)
  · cases ha

end Plain

/-! ## Records -/

namespace Fields

/-- Each value is that of an absent field, or has been read from a value of a text. -/
def Came (mode : Mode) : {αs : List Type} → Fields αs → Values αs → Prop
  | [], nil, () => True
  | _ :: _, cons f rest, (a, values) =>
    (f.absent = some a ∨ ∃ node : Node, node.IsScanned ∧ f.read mode node = .ok a) ∧
      rest.Came mode values

/-- Each slot is empty or has been read from a value of a text. -/
def SlotsCame (mode : Mode) : {αs : List Type} → Fields αs → Slots αs → Prop
  | [], nil, () => True
  | _ :: _, cons f rest, (slot, slots) =>
    (∀ a ∈ slot, ∃ node : Node, node.IsScanned ∧ f.read mode node = .ok a) ∧
      rest.SlotsCame mode slots

variable {mode : Mode}

theorem slotsCame_noSlots {αs : List Type} (fields : Fields αs) :
    fields.SlotsCame mode fields.noSlots := by
  induction fields with
  | nil => trivial
  | cons f rest ih =>
    refine ⟨fun a ha => ?_, ih⟩
    cases ha

theorem slotsCame_fill {αs : List Type} {fields : Fields αs} {name : String} {value : Node}
    (hvalue : value.IsScanned) {slots slots' : Slots αs} (h : fields.SlotsCame mode slots)
    (hfill : fields.fill name mode value slots = some (.ok slots')) :
    fields.SlotsCame mode slots' := by
  induction fields with
  | nil => cases hfill
  | cons f rest ih =>
    obtain ⟨slot, slots⟩ := slots
    unfold fill at hfill
    split at hfill
    · cases slot with
      | some a => cases hfill
      | none =>
        obtain ⟨a, ha, rfl⟩ := map_eq_ok (Option.some.inj hfill)
        refine ⟨fun a' ha' => ?_, h.2⟩
        cases ha'
        exact ⟨value, hvalue, ha⟩
    · obtain ⟨result, hresult, hmap⟩ := Option.map_eq_some_iff.1 hfill
      obtain ⟨slots'', rfl, rfl⟩ := map_eq_ok hmap
      exact ⟨h.1, ih h.2 hresult⟩

theorem slotsCame_readMembers {αs : List Type} {fields : Fields αs} :
    ∀ {members : Members} {slots slots' : Slots αs}, members.IsScanned →
      fields.SlotsCame mode slots → fields.readMembers mode members slots = .ok slots' →
        fields.SlotsCame mode slots'
  | .close, _, _, _, h, hread => by
    cases hread
    exact h
  | .broken _, _, _, _, _, hread | .noKey _, _, _, _, _, hread => nomatch hread
  | .member key value rest, _, _, hmembers, h, hread => by
    obtain ⟨name, -, hread⟩ := bind_eq_ok hread
    split at hread
    · next result hfill =>
      obtain ⟨slots'', rfl, hread⟩ := bind_eq_ok hread
      exact slotsCame_readMembers hmembers.2 (slotsCame_fill hmembers.1 h hfill) hread
    · obtain ⟨_, -, hread⟩ := bind_eq_ok hread
      exact slotsCame_readMembers hmembers.2 h hread

theorem came_finish {αs : List Type} {fields : Fields αs} {slots : Slots αs}
    (h : fields.SlotsCame mode slots) {values : Values αs}
    (hfinish : fields.finish slots = .ok values) : fields.Came mode values := by
  induction fields with
  | nil => trivial
  | cons f rest ih =>
    obtain ⟨slot, slots⟩ := slots
    rw [finish] at hfinish
    split at hfinish
    · cases hfinish
    · next a hslot =>
      obtain ⟨values, hvalues, rfl⟩ := map_eq_ok hfinish
      refine ⟨?_, ih h.2 hvalues⟩
      cases slot with
      | none => exact .inl hslot
      | some a' =>
        cases hslot
        exact .inr (h.1 a rfl)

theorem came_readItems {αs : List Type} {fields : Fields αs} {expected : String}
    {total index : Nat} {items : Items} (hitems : items.IsScanned) {values : Values αs}
    (h : fields.readItems expected total index mode items = .ok values) :
    fields.Came mode values := by
  induction fields generalizing index items with
  | nil => trivial
  | cons f rest ih =>
    cases items with
    | broken b => cases h
    | close =>
      rw [readItems] at h
      split at h
      · cases h
      · next a habsent =>
        obtain ⟨values, hvalues, rfl⟩ := map_eq_ok h
        exact ⟨.inl habsent, ih (show Items.IsScanned .close from trivial) hvalues⟩
    | item value items =>
      obtain ⟨a, ha, h⟩ := bind_eq_ok h
      obtain ⟨values, hvalues, h⟩ := bind_eq_ok h
      cases h
      exact ⟨.inr ⟨value, hitems.1, ha⟩, ih hitems.2 hvalues⟩

end Fields

section Record

variable {αs : List Type} {fields : Fields αs} {expected : String}

theorem came_objectRecord : (Reader.objectRecord expected fields).Yields fun mode values =>
    ∃ inner, mode.enter = .ok inner ∧ fields.Came inner values := by
  intro mode node values hnode h
  unfold Reader.objectRecord at h
  split at h
  · obtain ⟨inner, henter, h⟩ := bind_eq_ok h
    obtain ⟨slots, hslots, h⟩ := bind_eq_ok h
    exact ⟨inner, henter, Fields.came_finish
      (Fields.slotsCame_readMembers hnode (Fields.slotsCame_noSlots fields) hslots) h⟩
  · exact absurd h wrongType_ne_ok

/-- The values of a record are those of absent fields or have been read. -/
theorem came_record : (Reader.record expected fields).Yields fun mode values =>
    ∃ inner, mode.enter = .ok inner ∧ fields.Came inner values := by
  intro mode node values hnode h
  unfold Reader.record at h
  split at h
  · obtain ⟨inner, henter, h⟩ := bind_eq_ok h
    exact ⟨inner, henter, Fields.came_readItems hnode h⟩
  · exact came_objectRecord mode _ values hnode h

end Record

end Flowline.Json
