import Flowline.Proofs.Definition.Canonical
import Flowline.Registration

/-!
# What the hashed text tells apart

The hashed text of a specification consists of lines: the overall line, and for each category a line
in brackets followed by one line `name{expr}` for each of its stages (`hashedText_eq_unlines`). It
can be read back if nothing in the specification looks like the end of a line, or of a name
(`Legible`), so it tells legible specifications apart (`hashedText_inj`). What is read from a text
is legible (`hashedText_parse_eq_iff`). A structured definition need not be, and then another one
may have its hashed text (`not_hashedText_ne`).
-/

namespace Flowline

open Text Definition

namespace Spec

/-! ## The lines of the hashed text -/

/-- The line of a category, without the line feed before it. -/
def categoryLine (c : Category) : String := "[" ++ c.token ++ "]"

/-- The line of a stage, without the line feed before it. -/
def stageLine (stage : String × String) : String := stage.1 ++ "\x7b" ++ stage.2 ++ "\x7d"

def blockLines (block : Category × List (String × String)) : List String :=
  categoryLine block.1 :: block.2.map stageLine

def hashedLines (spec : Spec) : List String := spec.overall :: spec.listing.flatMap blockLines

/-- Line feeds between lines, and one more at the end, are line feeds after the lines. -/
theorem append_join_eq_unlines (first : String) (rest : List String) :
    first ++ String.join (rest.map ("\n" ++ ·)) ++ "\n" = unlines (first :: rest) := by
  induction rest generalizing first with
  | nil => simp [unlines]
  | cons line rest ih =>
    have hrest := ih line
    simp only [unlines, List.map_cons, String.join_cons] at hrest ⊢
    rw [← hrest]
    simp only [String.append_assoc]

theorem hashedStage_eq (stage : String × String) : hashedStage stage = "\n" ++ stageLine stage := by
  simp only [hashedStage, stageLine, String.append_assoc]

theorem hashedCategory_eq (entry : Category × Table String String) :
    hashedCategory entry =
      String.join ((blockLines (entry.1, entry.2.entries)).map ("\n" ++ ·)) := by
  have hstages : entry.2.entries.map hashedStage =
      (entry.2.entries.map stageLine).map ("\n" ++ ·) := by
    rw [List.map_map]
    exact List.map_congr_left fun stage _ => hashedStage_eq stage
  have hbracket : "\n[" = "\n" ++ "[" := rfl
  rw [blockLines, List.map_cons, String.join_cons, ← hstages, hashedCategory, hbracket]
  simp only [categoryLine, String.append_assoc]

theorem hashedText_eq_unlines (spec : Spec) :
    spec.hashedText ++ "\n" = unlines spec.hashedLines := by
  have hblocks : ∀ entries : List (Category × Table String String),
      String.join (entries.map hashedCategory) =
        String.join (((entries.map fun entry => (entry.1, entry.2.entries)).flatMap
          blockLines).map ("\n" ++ ·)) := by
    intro entries
    induction entries with
    | nil => rfl
    | cons entry entries ih =>
      rw [List.map_cons, String.join_cons, ih, hashedCategory_eq, List.map_cons, List.flatMap_cons,
        List.map_append, String.join_append]
  rw [hashedText, hblocks, hashedLines, ← append_join_eq_unlines]
  rfl

/-! ## Reading the lines back -/

/-- The parts of a stage can be found in its line. -/
structure LegibleStage (stage : String × String) : Prop where
  name : OneLine stage.1 ∧ '\x7b' ∉ stage.1.toList
  expr : OneLine stage.2

/-- The parts of the specification can be found in its hashed text. -/
structure Legible (spec : Spec) : Prop where
  overall : OneLine spec.overall
  stages : ∀ block ∈ spec.listing, ∀ stage ∈ block.2, LegibleStage stage

instance (stage : String × String) : Decidable (LegibleStage stage) :=
  decidable_of_iff ((OneLine stage.1 ∧ '\x7b' ∉ stage.1.toList) ∧ OneLine stage.2)
    ⟨fun h => ⟨h.1, h.2⟩, fun h => ⟨h.name, h.expr⟩⟩

instance (spec : Spec) : Decidable spec.Legible :=
  decidable_of_iff (OneLine spec.overall ∧
      ∀ block ∈ spec.listing, ∀ stage ∈ block.2, LegibleStage stage)
    ⟨fun h => ⟨h.1, h.2⟩, fun h => ⟨h.overall, h.stages⟩⟩

theorem oneLine_categoryLine (c : Category) : OneLine (categoryLine c) := by
  cases c <;> decide

theorem LegibleStage.oneLine {stage : String × String} (h : LegibleStage stage) :
    OneLine (stageLine stage) := by
  have hname := h.name.1
  have hexpr := h.expr
  simp only [OneLine, stageLine, String.toList_append, List.mem_append, not_or] at hname hexpr ⊢
  exact ⟨⟨⟨hname, by decide⟩, hexpr⟩, by decide⟩

theorem Legible.oneLine {spec : Spec} (h : spec.Legible) : ∀ l ∈ spec.hashedLines, OneLine l := by
  intro l hl
  rcases List.mem_cons.1 hl with rfl | hl
  · exact h.overall
  · obtain ⟨block, hblock, hl⟩ := List.mem_flatMap.1 hl
    rcases List.mem_cons.1 hl with rfl | hl
    · exact oneLine_categoryLine block.1
    · obtain ⟨stage, hstage, rfl⟩ := List.mem_map.1 hl
      exact (h.stages block hblock stage hstage).oneLine

theorem hashedLines_eq_of_hashedText_eq {s t : Spec} (hs : s.Legible) (ht : t.Legible)
    (h : s.hashedText = t.hashedText) : s.hashedLines = t.hashedLines := by
  have hunlines : unlines s.hashedLines = unlines t.hashedLines := by
    rw [← hashedText_eq_unlines, ← hashedText_eq_unlines, h]
  have hlines := congrArg (lines ·.toList) hunlines
  rw [lines_unlines hs.oneLine, lines_unlines ht.oneLine] at hlines
  exact List.map_injective_iff.2 (fun _ _ h => String.toList_injective h)
    (List.append_cancel_right hlines)

theorem categoryLine_inj {c d : Category} (h : categoryLine c = categoryLine d) : c = d := by
  cases c <;> cases d <;> first | rfl | exact absurd h (by decide)

/-- A stage is not taken for a category: its line ends with a brace. -/
theorem stageLine_ne_categoryLine (stage : String × String) (c : Category) :
    stageLine stage ≠ categoryLine c := by
  intro h
  have hstage : (stageLine stage).toList =
      (stage.1.toList ++ '\x7b' :: stage.2.toList) ++ ['\x7d'] := by
    simp [stageLine]
  have hcategory : (categoryLine c).toList = ('[' :: c.token.toList) ++ [']'] := by
    simp [categoryLine]
  have hlists := hstage.symm.trans ((congrArg String.toList h).trans hcategory)
  have hends := (List.append_inj' hlists rfl).2
  exact absurd hends (by decide)

/-- The line of a stage is cut at its first brace. -/
theorem stageLine_inj {a b : String × String} (ha : LegibleStage a) (hb : LegibleStage b)
    (h : stageLine a = stageLine b) : a = b := by
  have hcut : ∀ {stage : String × String}, LegibleStage stage →
      cutAt '\x7b' (stageLine stage).toList =
        some (stage.1.toList, stage.2.toList ++ ['\x7d']) := by
    intro stage hstage
    apply cutAt_eq_some_iff.2
    exact ⟨by simp [stageLine], hstage.name.2⟩
  have hparts := (hcut ha).symm.trans ((congrArg (cutAt '\x7b' ·.toList) h).trans (hcut hb))
  obtain ⟨hname, hexpr⟩ := Prod.mk.inj (Option.some.inj hparts)
  exact Prod.ext (String.toList_injective hname)
    (String.toList_injective (List.append_cancel_right hexpr))

/-- The lines of stages end where the next category begins. -/
theorem stages_inj {stages stages' : List (String × String)} {listing listing' : Listing}
    (hstages : ∀ stage ∈ stages, LegibleStage stage)
    (hstages' : ∀ stage ∈ stages', LegibleStage stage)
    (h : stages.map stageLine ++ listing.flatMap blockLines =
      stages'.map stageLine ++ listing'.flatMap blockLines) :
    stages = stages' ∧ listing.flatMap blockLines = listing'.flatMap blockLines := by
  -- What comes after the stages is the line of a category, or nothing.
  have hnext : ∀ {stage rest} {listing : Listing}, stageLine stage :: rest ≠
      listing.flatMap blockLines := by
    intro stage rest listing heq
    cases listing with
    | nil => cases heq
    | cons block listing => exact stageLine_ne_categoryLine _ _ (List.cons.inj heq).1
  induction stages generalizing stages' with
  | nil =>
    cases stages' with
    | nil => exact ⟨rfl, h⟩
    | cons stage' stages' => exact absurd h.symm hnext
  | cons stage stages ih =>
    cases stages' with
    | nil => exact absurd h hnext
    | cons stage' stages' =>
      obtain ⟨hstage, hstages⟩ := List.forall_mem_cons.1 hstages
      obtain ⟨hstage', hstages'⟩ := List.forall_mem_cons.1 hstages'
      obtain ⟨hline, hlines⟩ := List.cons.inj h
      obtain ⟨hrest, hlisting⟩ := ih hstages hstages' hlines
      rw [stageLine_inj hstage hstage' hline, hrest]
      exact ⟨rfl, hlisting⟩

theorem listing_inj {listing listing' : Listing}
    (hstages : ∀ block ∈ listing, ∀ stage ∈ block.2, LegibleStage stage)
    (hstages' : ∀ block ∈ listing', ∀ stage ∈ block.2, LegibleStage stage)
    (h : listing.flatMap blockLines = listing'.flatMap blockLines) : listing = listing' := by
  induction listing generalizing listing' with
  | nil =>
    cases listing' with
    | nil => rfl
    | cons block' listing' => cases h
  | cons block listing ih =>
    cases listing' with
    | nil => cases h
    | cons block' listing' =>
      obtain ⟨hblock, hlisting⟩ := List.forall_mem_cons.1 hstages
      obtain ⟨hblock', hlisting'⟩ := List.forall_mem_cons.1 hstages'
      obtain ⟨hcategory, hlines⟩ := List.cons.inj h
      obtain ⟨hparts, hrest⟩ := stages_inj hblock hblock' hlines
      rw [ih hlisting hlisting' hrest, Prod.ext (categoryLine_inj hcategory) hparts]

theorem eq_of_listing_eq {s t : Spec} (hoverall : s.overall = t.overall)
    (hlisting : s.listing = t.listing) : s = t := by
  have hentries : s.subStages.entries = t.subStages.entries := by
    apply List.map_injective_iff.2 ?_ hlisting
    intro a b heq
    obtain ⟨hcategory, hstages⟩ := Prod.mk.inj heq
    exact Prod.ext hcategory (Table.eq_of_entries hstages)
  obtain ⟨overall, subStages⟩ := s
  obtain ⟨overall', subStages'⟩ := t
  obtain rfl : overall = overall' := hoverall
  exact congrArg (Spec.mk overall) (Table.eq_of_entries hentries)

/-- The hashed text tells legible specifications apart. -/
theorem hashedText_inj {s t : Spec} (hs : s.Legible) (ht : t.Legible)
    (h : s.hashedText = t.hashedText) : s = t := by
  obtain ⟨hoverall, hblocks⟩ := List.cons.inj (hashedLines_eq_of_hashedText_eq hs ht h)
  exact eq_of_listing_eq hoverall (listing_inj hs.stages ht.stages hblocks)

/-- What can be read from a text is legible. -/
theorem WellFormed.legible {spec : Spec} (h : spec.WellFormed) : spec.Legible where
  overall := h.overall.1
  stages block hblock stage hstage := by
    have hwritable := (h.listing block hblock stage hstage).writable
    refine ⟨⟨hwritable.name.1, ?_⟩, hwritable.expr.1⟩
    intro hbrace
    exact absurd (hwritable.name.2.1 _ hbrace) (by decide)

end Spec

/-! ## What is told apart -/

/-- Of definitions that are read from texts, the bytes that are hashed are the same only if the
definitions are, in the same order. -/
theorem Definition.hashedText_parse_eq_iff (text text' : String) :
    (parse text).hashedText.toUTF8 = (parse text').hashedText.toUTF8 ↔
      parse text = parse text' := by
  constructor
  · intro h
    exact Spec.hashedText_inj (parse_wellFormed text).legible (parse_wellFormed text').legible
      (String.toByteArray_inj.1 h)
  · intro h
    rw [h]

namespace Spec

theorem hashedText_insertStage (c : Category) (a x : String) :
    ((ofOverall "").insertStage c a x).hashedText =
      "\n[" ++ c.token ++ "]" ++ hashedStage (a, x) := by
  simp [hashedText, hashedCategory, ofOverall, insertStage, Table.alter, Table.insert, Table.place,
    Table.empty]

theorem hashedText_insertStage_insertStage (c : Category) {a b : String} (hne : a ≠ b)
    (x y : String) :
    (((ofOverall "").insertStage c a x).insertStage c b y).hashedText =
      "\n[" ++ c.token ++ "]" ++ (hashedStage (a, x) ++ hashedStage (b, y)) := by
  simp [hashedText, hashedCategory, ofOverall, insertStage, Table.alter, Table.insert, Table.place,
    Table.empty, hne]

/-- What is not legible may look like something else: an overall line like a category, an expression
or a name like two stages, and a name like a shorter one with a longer expression. -/
theorem hashedText_eq_of_illegible (c : Category) {a b : String} (hne : a ≠ b) (x y : String) :
    (ofOverall (a ++ "\n[" ++ c.token ++ "]")).hashedText = ((ofOverall a).enter c).hashedText ∧
    ((ofOverall "").insertStage c a (x ++ "\x7d\n" ++ b ++ "\x7b" ++ y)).hashedText =
      (((ofOverall "").insertStage c a x).insertStage c b y).hashedText ∧
    ((ofOverall "").insertStage c (a ++ "\x7b" ++ x ++ "\x7d\n" ++ b) y).hashedText =
      (((ofOverall "").insertStage c a x).insertStage c b y).hashedText ∧
    ((ofOverall "").insertStage c (a ++ "\x7b" ++ x) y).hashedText =
      ((ofOverall "").insertStage c a (x ++ "\x7b" ++ y)).hashedText := by
  have hfeed : "\x7d\n" = "\x7d" ++ "\n" := rfl
  simp only [hashedText_insertStage, hashedText_insertStage_insertStage c hne, hashedStage, hfeed,
    String.append_assoc, and_true]
  simp [hashedText, hashedCategory, ofOverall, enter, Table.ensure, Table.alter, Table.place,
    Table.empty, String.append_assoc]

end Spec

namespace FlowDefinition

/-- Two structured definitions that differ may be hashed alike. -/
theorem not_hashedText_ne : ¬ ∀ overall subStages overall' subStages',
    (structured overall subStages).toSpec ≠ (structured overall' subStages').toSpec →
      (structured overall subStages).toSpec.hashedText.toUTF8 ≠
        (structured overall' subStages').toSpec.hashedText.toUTF8 := by
  intro h
  apply h "X\n[AWS]" Table.empty "X" (Table.ofList [("AWS", Table.empty)])
  · decide
  · decide

/-- They are not if both are legible. -/
theorem hashedText_ne_of_legible {d d' : FlowDefinition} (hd : d.toSpec.Legible)
    (hd' : d'.toSpec.Legible) (hne : d.toSpec ≠ d'.toSpec) :
    d.toSpec.hashedText.toUTF8 ≠ d'.toSpec.hashedText.toUTF8 := by
  intro h
  exact hne (Spec.hashedText_inj hd hd' (String.toByteArray_inj.1 h))

/-- An overall line like a category, and braces in an expression and at the end of a name. -/
theorem hashedText_ne_of_legible_braces :
    let d := structured "[AWS]" (Table.ofList [("AWS", Table.ofList [("A\x7d", "x\x7by\x7d")])])
    let d' := structured "[AWS]" (Table.ofList [("AWS", Table.ofList [("A", "x\x7by\x7d\x7d")])])
    d.toSpec.Legible ∧ d'.toSpec.Legible ∧ d.toSpec ≠ d'.toSpec ∧
      d.toSpec.hashedText.toUTF8 ≠ d'.toSpec.hashedText.toUTF8 := by
  intro d d'
  have hd : d.toSpec.Legible := by decide
  have hd' : d'.toSpec.Legible := by decide
  have hne : d.toSpec ≠ d'.toSpec := by decide
  exact ⟨hd, hd', hne, hashedText_ne_of_legible hd hd' hne⟩

end FlowDefinition

end Flowline
