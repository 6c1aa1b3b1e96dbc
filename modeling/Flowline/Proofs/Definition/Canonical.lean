import Flowline.Proofs.Definition.Writing

/-!
# Canonical texts

`Spec.WellFormed` describes the specifications that a text can have: it holds of everything that is
read, and what is well formed is read back from its canonical text.

* `parse_wellFormed`: each line that says something says something well formed (`step_wellFormed`),
  and recording it keeps the specification well formed.
* `ofListing_listing`: a well-formed specification is made again from its own listing.
* `read_canonical`: reading and writing are inverse to each other.
-/

namespace Flowline

open Text

namespace Definition

/-! ## What is read is well formed -/

/-- What the action records can stand in a well-formed specification. -/
def Action.WellFormed : Action → Prop
  | .captureOverall text => OneLine text ∧ NoHeader text ∧ IsTrimmed text.toList
  | .recordStage _ name expr => Spec.WellFormedStage (name, expr)
  | _ => True

section Step

variable {line : String}

/-- A part of a line that has no brace can be written, trimmed, as a name or as a content. -/
theorem writable_trim {part : List Char} (hpart : part ⊆ line.toList) (hline : OneLine line)
    (hunbraced : ∀ c ∈ part, Line.isBrace c = false) :
    OneLine (String.ofList (trim part)) ∧ Unbraced (String.ofList (trim part)) := by
  rw [OneLine, Unbraced, String.toList_ofList]
  exact ⟨fun hfeed => hline (hpart (mem_of_mem_trim hfeed)),
    fun c hc => hunbraced c (mem_of_mem_trim hc)⟩

/-- A name begins its line, so a header that begins the name begins the line. -/
theorem noHeader_trim {name rest : List Char} (hsplit : line.toList = name ++ rest)
    (htrimmed : IsTrimmed line.toList) (hheader : (Line.classify line).header? = none) :
    NoHeader (String.ofList (trim name)) := by
  have hhead : ∀ c ∈ name.head?, isBlank c = false := by
    intro c hc
    refine htrimmed.1 c ?_
    rw [hsplit, List.head?_append, hc]
    rfl
  have hprefix : trim name <+: line.toList := by
    rw [hsplit]
    exact (trim_prefix_self hhead).trans (List.prefix_append _ _)
  have hnot : ∀ word, Line.beginsWith word line.toList = false →
      Line.beginsWith word (trim name) = false := fun word hword =>
    Bool.eq_false_iff.2 (mt (Line.beginsWith_mono hprefix) (Bool.eq_false_iff.1 hword))
  obtain ⟨hoverall, hsubStages⟩ := Line.header?_classify_eq_none_iff.1 hheader
  rw [NoHeader, String.toList_ofList, trim_eq_self (isTrimmed_trim name)]
  exact ⟨hnot _ hoverall, hnot _ hsubStages⟩

theorem wellFormedStage_of_classify {name expr : String} (h : Line.classify line = .stage name expr)
    (hline : OneLine line) (htrimmed : IsTrimmed line.toList) :
    Spec.WellFormedStage (name, expr) := by
  have hheader : (Line.classify line).header? = none := by
    rw [h]
    rfl
  obtain ⟨n, e, hparts, hne, rfl, rfl⟩ := Line.stageParts?_of_classify h
  obtain ⟨hsplit, -, hunbraced, hunbraced'⟩ := Line.stageParts?_eq_some_iff.1 hparts
  have hname : n ⊆ line.toList := by
    rw [hsplit]
    exact List.subset_append_left _ _
  have hexpr : e ⊆ line.toList := by
    rw [hsplit]
    exact fun c hc => List.mem_append_right _ (List.mem_cons_of_mem _ (List.mem_append_left _ hc))
  obtain ⟨honeLine, hwritten⟩ := writable_trim hname hline hunbraced
  refine ⟨⟨⟨honeLine, hwritten, noHeader_trim hsplit htrimmed hheader⟩,
    writable_trim hexpr hline hunbraced'⟩, ?_, ?_, ?_⟩
  · rw [ne_eq, ← String.toList_eq_nil_iff, String.toList_ofList]
    exact hne
  · rw [String.toList_ofList]
    exact isTrimmed_trim n
  · rw [String.toList_ofList]
    exact isTrimmed_trim e

theorem step_wellFormed (state : State) (hline : OneLine line) (htrimmed : IsTrimmed line.toList) :
    (step state (Line.classify line) line).2.WellFormed := by
  cases hheader : (Line.classify line).header? with
  | some s =>
    rw [step_header hheader]
    trivial
  | none =>
    cases hs : state.inside with
    | none =>
      rw [step_outside hheader hs]
      trivial
    | overall =>
      rw [step_overall hheader hs]
      split
      · trivial
      · refine ⟨hline, ?_, htrimmed⟩
        unfold NoHeader
        rw [trim_eq_self htrimmed]
        exact Line.header?_classify_eq_none_iff.1 hheader
    | subStages =>
      rw [step_subStages_action hs]
      cases hkind : Line.classify line with
      | stage name expr =>
        cases hc : state.category with
        | none => trivial
        | some c => exact wellFormedStage_of_classify hkind hline htrimmed
      | _ => trivial

end Step

theorem outcomes_wellFormed {doc : List String}
    (h : ∀ line ∈ doc, OneLine line ∧ IsTrimmed line.toList) (state : State) :
    ∀ action ∈ outcomes state doc, action.WellFormed := by
  induction doc generalizing state with
  | nil => simp [outcomes]
  | cons line rest ih =>
    obtain ⟨⟨hline, htrimmed⟩, hrest⟩ := List.forall_mem_cons.1 h
    rw [outcomes_cons]
    exact List.forall_mem_cons.2 ⟨step_wellFormed state hline htrimmed, ih hrest _⟩

theorem wellFormed_empty : (Spec.ofOverall "").WellFormed := by
  refine ⟨⟨by decide, by decide⟩, by decide, fun c name expr h => ?_⟩
  cases h

/-- One action keeps the specification well formed. -/
theorem record_wellFormed {spec : Spec} {action : Action} (hspec : spec.WellFormed)
    (haction : action.WellFormed) : (record spec action).WellFormed := by
  cases action with
  | captureOverall text =>
    obtain ⟨hline, hheader, htrimmed⟩ := haction
    exact ⟨⟨hline, hheader⟩, htrimmed, hspec.stages⟩
  | enterCategory c =>
    refine ⟨hspec.overall, hspec.overall_trimmed, fun c' name expr h => ?_⟩
    rw [record, Spec.stagesOf_enter] at h
    exact hspec.stages c' name expr h
  | recordStage c name expr =>
    refine ⟨hspec.overall, hspec.overall_trimmed, fun c' name' expr' h => ?_⟩
    rw [record, Spec.stagesOf_insertStage] at h
    split at h
    · rw [Table.get?_insert] at h
      split at h
      · next hname =>
        subst hname
        cases h
        exact haction
      · exact hspec.stages c name' expr' h
    · exact hspec.stages c' name' expr' h
  | skip | drop reason => exact hspec

theorem foldl_record_wellFormed {acts : List Action} (h : ∀ action ∈ acts, action.WellFormed)
    {spec : Spec} (hspec : spec.WellFormed) : (acts.foldl record spec).WellFormed := by
  induction acts generalizing spec with
  | nil => exact hspec
  | cons action acts ih =>
    obtain ⟨haction, hacts⟩ := List.forall_mem_cons.1 h
    exact ih hacts (record_wellFormed hspec haction)

/-- The lines that are read are trimmed, and each is one line. -/
theorem mem_map_text_numberedLines {text line : String}
    (h : line ∈ (numberedLines text).map NumberedLine.text) :
    OneLine line ∧ IsTrimmed line.toList := by
  rw [map_text_numberedLines] at h
  obtain ⟨trimmedLine, hmem, rfl⟩ := List.mem_map.1 h
  obtain ⟨raw, hraw, rfl⟩ := List.mem_map.1 (List.mem_of_mem_filter hmem)
  have hnot : '\n' ∉ raw := not_mem_of_mem_splitOn hraw
  unfold OneLine
  rw [String.toList_ofList]
  exact ⟨fun hc => hnot (mem_of_mem_trim hc), isTrimmed_trim raw⟩

/-- What is read is well formed. -/
theorem parse_wellFormed (text : String) : (parse text).WellFormed := by
  rw [parse_eq]
  exact foldl_record_wellFormed
    (outcomes_wellFormed (fun _ hline => mem_map_text_numberedLines hline) _) wellFormed_empty

end Definition

namespace Spec

open Definition

/-! ## A specification from its listing -/

/-- The stages of a block, trimmed. -/
def trimmedStages (stages : List (String × String)) : List (String × String) :=
  stages.map fun stage => (trimmed stage.1, trimmed stage.2)

theorem foldl_insertStage (spec : Spec) (c : Category) (stages : List (String × String))
    (f : Option (Table String String) → Table String String) :
    stages.foldl (fun (spec : Spec) stage =>
        spec.insertStage c (trimmed stage.1) (trimmed stage.2))
        ⟨spec.overall, spec.subStages.alter c f⟩ =
      ⟨spec.overall,
        spec.subStages.alter c fun old => (f old).insertAll (trimmedStages stages)⟩ := by
  induction stages generalizing f with
  | nil => rfl
  | cons stage stages ih =>
    rw [List.foldl_cons, insertStage]
    dsimp only
    rw [Table.alter_alter, ih]
    rfl

/-- Writes the stages of one category, trimmed, into its entry. -/
def insertEntry (t : Table Category (Table String String))
    (block : Category × List (String × String)) : Table Category (Table String String) :=
  t.alter block.1 fun old => (old.getD Table.empty).insertAll (trimmedStages block.2)

/-- Writing the stages of a category writes its entry once. -/
theorem insertBlock_eq (spec : Spec) (block : Category × List (String × String)) :
    spec.insertBlock block = ⟨spec.overall, insertEntry spec.subStages block⟩ :=
  foldl_insertStage spec block.1 block.2 _

theorem ofListing_eq (overall : String) (listing : Listing) :
    ofListing overall listing = ⟨trimmed overall, listing.foldl insertEntry Table.empty⟩ :=
  List.foldl_hom (Spec.mk (trimmed overall)) fun t block => insertBlock_eq ⟨_, t⟩ block

theorem mem_listing {spec : Spec} {block : Category × List (String × String)}
    {stage : String × String} (hblock : block ∈ spec.listing) (hstage : stage ∈ block.2) :
    (spec.stagesOf block.1).get? stage.1 = some stage.2 := by
  obtain ⟨⟨c, stages⟩, hentry, rfl⟩ := List.mem_map.1 hblock
  have hget : spec.subStages.get? c = some stages := (Table.get?_eq_some_iff _ _ _).2 hentry
  rw [stagesOf, hget]
  exact (Table.get?_eq_some_iff _ _ _).2 hstage

/-- Everything that a well-formed specification lists is well formed. -/
theorem WellFormed.listing {spec : Spec} (h : spec.WellFormed) :
    ∀ block ∈ spec.listing, ∀ stage ∈ block.2, WellFormedStage stage :=
  fun _ hblock _ hstage => h.stages _ _ _ (mem_listing hblock hstage)

theorem WellFormed.writable {spec : Spec} (h : spec.WellFormed) :
    Writable spec.overall spec.listing :=
  ⟨h.overall, fun block hblock stage hstage => (h.listing block hblock stage hstage).writable⟩

theorem trimmed_eq_self {s : String} (h : IsTrimmed s.toList) : trimmed s = s := by
  rw [trimmed, trim_eq_self h, String.ofList_toList]

theorem trimmedStages_eq_self {stages : List (String × String)}
    (h : ∀ stage ∈ stages, WellFormedStage stage) : trimmedStages stages = stages := by
  refine (List.map_congr_left fun stage hstage => ?_).trans (List.map_id stages)
  rw [trimmed_eq_self (h stage hstage).name_trimmed, trimmed_eq_self (h stage hstage).expr_trimmed]
  rfl

/-- A well-formed specification is made again from its own listing. -/
theorem ofListing_listing {spec : Spec} (h : spec.WellFormed) :
    ofListing spec.overall spec.listing = spec := by
  have hkeys : ((Table.empty : Table Category (Table String String)).keys ++
      spec.listing.map Prod.fst).Nodup := by
    rw [listing, List.map_map]
    exact spec.subStages.keys_nodup
  have hentries := Table.entries_foldl_alter Prod.fst
    (fun (block : Category × List (String × String)) old =>
      (old.getD Table.empty).insertAll (trimmedStages block.2)) Table.empty spec.listing hkeys
  have hblock : ∀ block ∈ spec.listing, (Table.empty : Table String String).insertAll
      (trimmedStages block.2) = Table.ofList block.2 := by
    intro block hblock
    rw [trimmedStages_eq_self (h.listing block hblock)]
    rfl
  rw [ofListing_eq, trimmed_eq_self h.overall_trimmed]
  refine congrArg (Spec.mk spec.overall) (Table.eq_of_entries (hentries.trans ?_))
  refine (List.map_congr_left fun block hmem => congrArg _ (hblock block hmem)).trans ?_
  rw [listing, List.map_map]
  refine (List.map_congr_left fun entry _ => ?_).trans (List.map_id _)
  exact congrArg _ (Table.ofList_entries entry.2)

end Spec

namespace Definition

/-! ## Reading and writing -/

theorem read_canonical_of_wellFormed {spec : Spec} (h : spec.WellFormed) (headed : Bool) :
    read (spec.canonical headed) = ⟨spec, []⟩ := by
  have hnames : Named spec.listing := by
    intro block hblock stage hstage
    have hstage := h.listing block hblock stage hstage
    rw [Spec.trimmed_eq_self hstage.name_trimmed]
    exact hstage.name_ne
  have hread := read_write h.writable hnames headed
  rwa [Spec.ofListing_listing h] at hread

/-- What is read is well formed, and a specification is well formed exactly if its canonical text is
read back as it is, in its order, without a dropped line. So the well-formed specifications are
those that some text has, and rendering what was read again changes nothing. -/
theorem read_canonical :
    (∀ text, (parse text).WellFormed) ∧
      (∀ (headed : Bool) (spec : Spec),
        spec.WellFormed ↔ read (spec.canonical headed) = ⟨spec, []⟩) ∧
      (∀ spec : Spec, spec.WellFormed ↔ ∃ text, parse text = spec) ∧
      ∀ headed text,
        (parse ((parse text).canonical headed)).canonical headed =
          (parse text).canonical headed := by
  have hparse : ∀ {text : String} {spec : Spec}, read text = ⟨spec, []⟩ → parse text = spec :=
    fun h => congrArg Reading.spec h
  refine ⟨parse_wellFormed, fun headed spec => ⟨fun h => read_canonical_of_wellFormed h headed,
    fun h => ?_⟩, fun spec => ⟨fun h => ?_, ?_⟩, fun headed text => ?_⟩
  · rw [← hparse h]
    exact parse_wellFormed _
  · exact ⟨spec.canonical true, hparse (read_canonical_of_wellFormed h true)⟩
  · rintro ⟨text, rfl⟩
    exact parse_wellFormed text
  · rw [hparse (read_canonical_of_wellFormed (parse_wellFormed text) headed)]

end Definition

end Flowline
