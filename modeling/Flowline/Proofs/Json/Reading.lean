import Flowline.Json.Record
import Flowline.Proofs.Json.Opaque

/-!
# Readers undo writers

`Reader.Reads r d j a` says that the reader takes the written value `j` for `a`, where `d` is how
deep lists and objects nest in it, from the text or from a buffer. There is one lemma for each way
of making readers, so that a reader is matched with its writer by applying them from the outside
in. A record reads what its members spell, whichever of them are left out (`Reads.record`); this
asks that no field goes by the name of another (`Fields.distinct`).
-/

namespace Flowline.Json

/-- The reader takes the written value for `a`, if lists and objects may nest so deep. -/
def Reader.Reads {α : Type} (r : Reader α) (d : Nat) (j : Json) (a : α) : Prop :=
  ∀ mode : Mode, mode.Allows d → r mode (Node.ofJson j) = .ok a

/-- The reader takes the written value for nothing. -/
def Reader.Refuses {α : Type} (r : Reader α) (j : Json) : Prop :=
  ∀ mode, ∃ fault, r mode (Node.ofJson j) = .error fault

section Plain

variable {α β : Type} {r : Reader α} {d : Nat} {j : Json} {a : α}

theorem Reader.Reads.mono (h : r.Reads d j a) {d' : Nat} (hd : d ≤ d') : r.Reads d' j a :=
  fun mode hmode => h mode (hmode.mono hd)

theorem Reader.Reads.map (h : r.Reads d j a) (f : α → β) : (r.map f).Reads d j (f a) := by
  intro mode hmode
  rw [Reader.map, h mode hmode]
  rfl

theorem Reader.Refuses.map (h : r.Refuses j) (f : α → β) : (r.map f).Refuses j := by
  intro mode
  obtain ⟨fault, hfault⟩ := h mode
  rw [Reader.map, hfault]
  exact ⟨fault, rfl⟩

theorem reads_text (s : String) : Reader.text.Reads 0 (.text s) s := fun _ _ => rfl

theorem refuses_text_object (members : List (String × Json)) :
    Reader.text.Refuses (.object members) := fun _ => ⟨_, rfl⟩

theorem reads_integer {low high n : Int} (hlow : low ≤ n) (hhigh : n ≤ high) (expected : String) :
    (Reader.integer low high expected).Reads 0 (.int n) n := by
  intro mode _
  show (if low ≤ n ∧ n ≤ high then Except.ok n else _) = Except.ok n
  rw [if_pos ⟨hlow, hhigh⟩]

theorem reads_natural {high n : Nat} (h : n ≤ high) (expected : String) :
    (Reader.natural high expected).Reads 0 (.nat n) n :=
  (reads_integer (Int.natCast_nonneg n) (Int.ofNat_le.2 h) expected).map Int.toNat

theorem Reader.Reads.optional (h : r.Reads d j a) (hj : j ≠ .null) :
    r.optional.Reads d j (some a) := by
  intro mode hmode
  have hread := h mode hmode
  unfold Reader.optional
  split
  · next hnull =>
    cases j with
    | null => exact absurd rfl hj
    | _ => cases hnull
  · rw [hread]
    rfl

/-- A value that is not looked into is read back if it is sorted. -/
theorem reads_any (hj : j.sorted = j) (hd : j.depth ≤ d) : Reader.any.Reads d j j := fun _ hmode =>
  (opaqueValue_ofJson (hmode.mono hd)).trans (congrArg Except.ok hj)

/-! ## Lists and maps -/

theorem readItems_ofList {mode : Mode} {xs : List α} {f : α → Json}
    (h : ∀ x ∈ xs, r mode (Node.ofJson (f x)) = .ok x) :
    readItems (r mode) (Items.ofList (xs.map f)) = .ok xs := by
  induction xs with
  | nil => rfl
  | cons x xs ih =>
    obtain ⟨hx, hxs⟩ := List.forall_mem_cons.1 h
    simp only [List.map_cons, Items.ofList, readItems, hx, ih hxs, bind, Except.bind]
    rfl

theorem reads_list {xs : List α} {f : α → Json} (h : ∀ x ∈ xs, r.Reads d (f x) x) :
    r.list.Reads (d + 1) (.list (xs.map f)) xs := by
  intro mode hmode
  obtain ⟨inner, henter, hinner⟩ := Mode.exists_enter hmode
  show (do readItems (r (← mode.enter)) (Items.ofList (xs.map f))) = _
  rw [henter]
  exact readItems_ofList fun x hx => h x hx inner hinner

theorem readMembers_ofList {β : Type} {r : Reader β} {mode : Mode} {es : List (String × α)}
    {f : α → Json} {g : α → β} (h : ∀ e ∈ es, r mode (Node.ofJson (f e.2)) = .ok (g e.2)) :
    readMembers .ok (r mode) (Members.ofList (es.map fun e => (e.1, f e.2))) =
      .ok (es.map fun e => (e.1, g e.2)) := by
  induction es with
  | nil => rfl
  | cons e es ih =>
    obtain ⟨he, hes⟩ := List.forall_mem_cons.1 h
    simp only [List.map_cons, Members.ofList, readMembers, Token.good, Break.fault, he, ih hes,
      bind, Except.bind]
    rfl

/-- An object is read member by member, also if the values are not read as they were. -/
theorem reads_members {β : Type} {r : Reader β} {es : List (String × α)} {f : α → Json}
    {g : α → β} (h : ∀ e ∈ es, r.Reads d (f e.2) (g e.2)) :
    (Reader.members .ok r).Reads (d + 1) (.object (es.map fun e => (e.1, f e.2)))
      (es.map fun e => (e.1, g e.2)) := by
  intro mode hmode
  obtain ⟨inner, henter, hinner⟩ := Mode.exists_enter hmode
  show (do readMembers .ok (r (← mode.enter)) _) = _
  rw [henter]
  exact readMembers_ofList fun e he => h e he inner hinner

theorem reads_table {t : Table String α} {f : α → Json}
    (h : ∀ e ∈ t.entries, r.Reads d (f e.2) e.2) :
    r.table.Reads (d + 1) (.object (t.entries.map fun e => (e.1, f e.2))) t := by
  have hread := (reads_members (g := id) h).map Table.ofList
  rwa [show t.entries.map (fun e => (e.1, id e.2)) = t.entries from List.map_id _,
    t.ofList_entries] at hread

/-- A map is read value by value, also if the values are not read as they were. -/
theorem reads_nameMap_mapValues {β : Type} {r : Reader β} {m : NameMap α} {f : α → Json} {g : α → β}
    (h : ∀ e ∈ m.entries, r.Reads d (f e.2) (g e.2)) :
    r.nameMap.Reads (d + 1) (.object (m.entries.map fun e => (e.1, f e.2))) (m.mapValues g) := by
  have hread := (reads_members h).map NameMap.ofList
  rwa [show NameMap.ofList (m.entries.map fun e => (e.1, g e.2)) = m.mapValues g from
    (m.mapValues g).ofList_entries] at hread

/-- An object that is not looked into is read back if its values are sorted. -/
theorem reads_anyMap {m : NameMap Json} (hm : ∀ e ∈ m.entries, e.2.sorted = e.2)
    (hd : ∀ e ∈ m.entries, e.2.depth ≤ d) : Reader.anyMap.Reads (d + 1) (.ofNameMap m) m := by
  have hvalues : ∀ e ∈ m.entries, Reader.any.Reads d (id e.2) (id e.2) :=
    fun e he => reads_any (hm e he) (hd e he)
  have hmap := reads_nameMap_mapValues hvalues
  have hself : m.mapValues id = m := NameMap.eq_of_entries (List.map_id _)
  rwa [hself, show m.entries.map (fun e => (e.1, id e.2)) = m.entries from List.map_id _] at hmap

/-! ## Choices -/

/-- A variant is read from its name. -/
theorem reads_variant {variants : List (String × α)} {name : String}
    (h : variants.lookup name = some a) : (Reader.variant variants).Reads 0 (.text name) a := by
  intro mode _
  show variantNamed variants name = .ok a
  rw [variantNamed, h]

/-- A value that is read whole first, and then again by the first reader that accepts it. -/
theorem Reader.Reads.forms_head (h : r.Reads d j a) (hd : j.depth ≤ d) (type : String)
    (others : List (Reader α)) : (Reader.forms type (r :: others)).Reads d j a := by
  intro mode hmode
  have hany : Reader.any mode (Node.ofJson j) = .ok j.sorted := opaqueValue_ofJson (hmode.mono hd)
  simp only [Reader.forms, hany, h mode.again (mode.allows_again d), List.findSome?_cons, bind,
    Except.bind, Except.toOption]
  rfl

theorem Reader.Reads.forms_tail {others : List (Reader α)} {type : String}
    (h : (Reader.forms type others).Reads d j a) (hd : j.depth ≤ d) (hr : r.Refuses j) :
    (Reader.forms type (r :: others)).Reads d j a := by
  intro mode hmode
  have hany : Reader.any mode (Node.ofJson j) = .ok j.sorted := opaqueValue_ofJson (hmode.mono hd)
  have hothers := h mode hmode
  obtain ⟨fault, hfault⟩ := hr mode.again
  simp only [Reader.forms, hany, hfault, List.findSome?_cons, bind, Except.bind,
    Except.toOption] at hothers ⊢
  exact hothers

end Plain

/-! ## Records -/

namespace Fields

/-- The names of the fields. -/
def names {αs : List Type} : Fields αs → List String
  | nil => []
  | cons f rest => f.name :: rest.names

/-- No field goes by the name of a later one. -/
def distinct {αs : List Type} : Fields αs → Bool
  | nil => true
  | cons f rest => rest.names.all (fun name => !f.goesBy name) && rest.distinct

/-- The members spell the values of the fields: each field in its place, or left out if its value
is that of an absent one. -/
inductive Spelled (d : Nat) : {αs : List Type} → Fields αs → List (String × Json) → Values αs → Prop
  | nil : Spelled d nil [] ()
  | present {α : Type} {αs : List Type} {f : Field α} {rest : Fields αs} {j : Json} {a : α}
      {members : List (String × Json)} {values : Values αs} (h : f.read.Reads d j a)
      (hrest : Spelled d rest members values) :
      Spelled d (cons f rest) ((f.name, j) :: members) (a, values)
  | absent {α : Type} {αs : List Type} {f : Field α} {rest : Fields αs} {a : α}
      {members : List (String × Json)} {values : Values αs} (h : f.absent = some a)
      (hrest : Spelled d rest members values) : Spelled d (cons f rest) members (a, values)

theorem Spelled.mem_names {d : Nat} {αs : List Type} {fields : Fields αs}
    {members : List (String × Json)} {values : Values αs} (h : fields.Spelled d members values) :
    ∀ e ∈ members, e.1 ∈ fields.names := by
  induction h with
  | nil =>
    intro e he
    cases he
  | present _ _ ih =>
    refine List.forall_mem_cons.2 ⟨List.mem_cons_self, fun e he => ?_⟩
    exact List.mem_cons_of_mem _ (ih e he)
  | absent _ _ ih => exact fun e he => List.mem_cons_of_mem _ (ih e he)

theorem Spelled.goesBy_eq_false {d : Nat} {α : Type} {αs : List Type} {f : Field α}
    {fields : Fields αs} {members : List (String × Json)} {values : Values αs}
    (h : fields.Spelled d members values)
    (hnames : (fields.names.all fun name => !f.goesBy name) = true) :
    ∀ e ∈ members, f.goesBy e.1 = false := by
  intro e he
  have := List.all_eq_true.1 hnames e.1 (h.mem_names e he)
  simpa using this

/-- Members that a field does not go by leave its slot alone. -/
theorem readMembers_cons {α : Type} {αs : List Type} {f : Field α} {rest : Fields αs} {mode : Mode}
    {members : List (String × Json)} (h : ∀ e ∈ members, f.goesBy e.1 = false)
    (slot : Option α) (slots : Slots αs) :
    (cons f rest).readMembers mode (Members.ofList members) (slot, slots) =
      (rest.readMembers mode (Members.ofList members) slots).map fun slots => (slot, slots) := by
  induction members generalizing slots with
  | nil => rfl
  | cons e es ih =>
    obtain ⟨hname, hes⟩ := List.forall_mem_cons.1 h
    simp only [Members.ofList, readMembers, Token.good, Break.fault, fill, hname,
      Bool.false_eq_true, if_false, bind, Except.bind]
    cases rest.fill e.1 mode (Node.ofJson e.2) slots with
    | none =>
      simp only [Option.map_none]
      cases (Node.ofJson e.2).pass with
      | error fault => rfl
      | ok _ => exact ih hes slots
    | some result =>
      cases result with
      | error fault => rfl
      | ok slots' => exact ih hes slots'

/-- The slots after the members that spell the values are those of the values. -/
theorem Spelled.readMembers {d : Nat} {αs : List Type} {fields : Fields αs}
    {members : List (String × Json)} {values : Values αs} (h : fields.Spelled d members values)
    (hdistinct : fields.distinct = true) {mode : Mode} (hmode : mode.Allows d) :
    ∃ slots, fields.readMembers mode (Members.ofList members) fields.noSlots = .ok slots ∧
      fields.finish slots = .ok values := by
  induction h with
  | nil => exact ⟨(), rfl, rfl⟩
  | @present α αs f rest j a members values hread hrest ih =>
    rw [distinct, Bool.and_eq_true] at hdistinct
    obtain ⟨slots, hslots, hfinish⟩ := ih hdistinct.2
    have hnames := hrest.goesBy_eq_false hdistinct.1
    have hself : f.goesBy f.name = true := by simp [Field.goesBy]
    refine ⟨(some a, slots), ?_, ?_⟩
    · simp only [Members.ofList, Fields.readMembers, Token.good, Break.fault, noSlots, fill, hself,
        if_true, hread mode hmode, Except.map, bind, Except.bind]
      rw [readMembers_cons hnames, hslots]
      rfl
    · simp only [finish, Option.some_or, hfinish]
      rfl
  | @absent α αs f rest a members values habsent hrest ih =>
    rw [distinct, Bool.and_eq_true] at hdistinct
    obtain ⟨slots, hslots, hfinish⟩ := ih hdistinct.2
    have hnames := hrest.goesBy_eq_false hdistinct.1
    refine ⟨(none, slots), ?_, ?_⟩
    · rw [noSlots, readMembers_cons hnames, hslots]
      rfl
    · simp only [finish, Option.none_or, habsent, hfinish]
      rfl

end Fields

section Record

variable {αs : List Type} {fields : Fields αs} {d : Nat} {members : List (String × Json)}
  {values : Values αs}

theorem reads_objectRecord (expected : String) (hdistinct : fields.distinct = true)
    (h : fields.Spelled d members values) :
    (Reader.objectRecord expected fields).Reads (d + 1) (.object members) values := by
  intro mode hmode
  obtain ⟨inner, henter, hinner⟩ := Mode.exists_enter hmode
  obtain ⟨slots, hslots, hfinish⟩ := h.readMembers hdistinct hinner
  simp only [Reader.objectRecord, Node.ofJson, henter, hslots, hfinish, bind, Except.bind]

/-- A record is read from members that spell the values of its fields. -/
theorem reads_record (expected : String) (hdistinct : fields.distinct = true)
    (h : fields.Spelled d members values) :
    (Reader.record expected fields).Reads (d + 1) (.object members) values := by
  intro mode hmode
  simpa only [Reader.record, Node.ofJson] using reads_objectRecord expected hdistinct h mode hmode

end Record

/-! ## Members that are kept for later -/

section Kept

variable {d : Nat} {mode : Mode}

/-- Every member but the tag is read whole and kept. -/
theorem readTagged_ofList {α : Type} {variants : List (String × α)} {members : List (String × Json)}
    (hmode : mode.Allows d) (h : ∀ e ∈ members, e.1 ≠ tagName ∧ e.2.depth ≤ d) (tag : Option α) :
    readTagged variants mode (Members.ofList members) tag = .ok (tag, Members.ofList members) := by
  induction members with
  | nil => rfl
  | cons e es ih =>
    obtain ⟨⟨hname, hdepth⟩, hes⟩ := List.forall_mem_cons.1 h
    have hany : Reader.any mode (Node.ofJson e.2) = .ok e.2.sorted :=
      opaqueValue_ofJson (hmode.mono hdepth)
    simp only [Members.ofList, readTagged, Token.good, Break.fault, hname, if_false, hany, ih hes,
      bind, Except.bind]
    rfl

/-- A record with a tag is read by the reader that the tag chooses, from the other members. -/
theorem reads_tagged {α : Type} {variants : List (String × Reader α)} {tag : String} {r : Reader α}
    {members : List (String × Json)} {a : α} (type : String)
    (htag : variants.lookup tag = some r) (h : ∀ e ∈ members, e.1 ≠ tagName ∧ e.2.depth ≤ d)
    (hr : r.Reads (d + 1) (.object members) a) :
    (Reader.tagged type variants).Reads (d + 1) (.object ((tagName, .text tag) :: members)) a := by
  intro mode hmode
  obtain ⟨inner, henter, hinner⟩ := Mode.exists_enter hmode
  have hname : variantNamed variants tag = .ok r := by rw [variantNamed, htag]
  have hread : r inner.again (.object (Members.ofList members)) = .ok a :=
    hr inner.again (inner.allows_again _)
  simp only [Reader.tagged, Node.ofJson, Members.ofList, henter, readTagged, readTag, Token.good,
    Break.fault, hname, if_true, readTagged_ofList hinner h, hread, bind, Except.bind]

namespace Fields

variable {αs : List Type} {fields : Fields αs} {slots : Slots αs}

/-- Whether some field goes by the name. -/
def knows {αs : List Type} (name : String) : Fields αs → Bool
  | nil => false
  | cons f rest => f.goesBy name || rest.knows name

theorem knows_of_mem_names {name : String} (h : name ∈ fields.names) :
    fields.knows name = true := by
  induction fields with
  | nil => cases h
  | cons f rest ih =>
    rw [knows, Bool.or_eq_true]
    rcases List.mem_cons.1 h with rfl | h
    · exact .inl (by simp [Field.goesBy])
    · exact .inr (ih h)

/-- The fields take the members that they know. -/
theorem isSome_fill (fields : Fields αs) (name : String) (mode : Mode) (value : Node)
    (slots : Slots αs) : (fields.fill name mode value slots).isSome = fields.knows name := by
  induction fields with
  | nil => rfl
  | cons f rest ih =>
    obtain ⟨slot, slots⟩ := slots
    cases hgoes : f.goesBy name with
    | false =>
      simp only [fill, knows, hgoes, Bool.false_eq_true, if_false, Option.isSome_map, ih,
        Bool.false_or]
    | true =>
      simp only [fill, knows, hgoes, if_true, Bool.true_or]
      cases slot <;> rfl

/-- If all members are fields, nothing is kept. -/
theorem readBeside_of_names {members : List (String × Json)}
    (h : ∀ e ∈ members, e.1 ∈ fields.names) :
    fields.readBeside mode (Members.ofList members) slots =
      (fields.readMembers mode (Members.ofList members) slots).map
        fun slots => (slots, .close) := by
  induction members generalizing slots with
  | nil => rfl
  | cons e es ih =>
    obtain ⟨hname, hes⟩ := List.forall_mem_cons.1 h
    have hsome := fields.isSome_fill e.1 mode (Node.ofJson e.2) slots
    rw [knows_of_mem_names hname] at hsome
    obtain ⟨result, hfill⟩ := Option.isSome_iff_exists.1 hsome
    simp only [Members.ofList, readBeside, readMembers, Token.good, Break.fault, bind, Except.bind,
      hfill]
    cases result with
    | error fault => rfl
    | ok slots' => exact ih hes

/-- Members that no field goes by are kept, the others are read. -/
theorem Spelled.readBeside {members others : List (String × Json)} {values : Values αs}
    (h : fields.Spelled d members values) (hdistinct : fields.distinct = true)
    (hmode : mode.Allows d) (hothers : ∀ e ∈ others, fields.knows e.1 = false ∧ e.2.depth ≤ d) :
    ∃ slots, fields.readBeside mode (Members.ofList (others ++ members)) fields.noSlots =
        .ok (slots, Members.ofList others) ∧ fields.finish slots = .ok values := by
  obtain ⟨slots, hslots, hfinish⟩ := h.readMembers hdistinct hmode
  refine ⟨slots, ?_, hfinish⟩
  induction others with
  | nil =>
    rw [List.nil_append, readBeside_of_names h.mem_names, hslots]
    rfl
  | cons e es ih =>
    obtain ⟨⟨hname, hdepth⟩, hes⟩ := List.forall_mem_cons.1 hothers
    have hnone := fields.isSome_fill e.1 mode (Node.ofJson e.2) fields.noSlots
    rw [hname, Option.isSome_eq_false_iff, Option.isNone_iff_eq_none] at hnone
    have hany : Reader.any mode (Node.ofJson e.2) = .ok e.2.sorted :=
      opaqueValue_ofJson (hmode.mono hdepth)
    simp only [List.cons_append, Members.ofList, Fields.readBeside, Token.good, Break.fault, hnone,
      hany, ih hes, bind, Except.bind]
    rfl

end Fields

end Kept

end Flowline.Json
