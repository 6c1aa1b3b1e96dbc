import Flowline.SubStage
import Flowline.Proofs.Text.Arrow

/-!
# What an expression says

`Derives expr kind names` says what the kind and the names of an expression are, and that they give
it back but for blanks and empty pieces: names that are put together with the separator of the kind,
with any blanks around them, have this kind and are these names. No name makes a separator with what
stands beside it, since the end of an arrow does not begin one.

`derives_deriveSubStages`: this holds of every expression.
-/

namespace Flowline

open Text

namespace SubStageKind

/-- What stands between the names in an expression of this kind. A single name has no other. -/
def separator? : SubStageKind → Option (List Char)
  | sequential => some arrow
  | parallel => some [',']
  | single => none

/-- The pieces of an expression of this kind: what stands between the separators, or all of it. -/
def HasPieces (kind : SubStageKind) (s : List Char) (pieces : List (List Char)) : Prop :=
  match kind.separator? with
  | some sep => Cuts sep s pieces
  | none => pieces = [s]

variable {kind : SubStageKind} {s : List Char}

theorem hasPieces_iff {pieces : List (List Char)} :
    kind.HasPieces s pieces ↔ pieces = kind.pieces s := by
  cases kind with
  | sequential => exact cuts_iff_splitArrow.trans eq_comm
  | parallel => exact cuts_iff_splitOn.trans eq_comm
  | single => exact Iff.rfl

theorem hasPieces_iff_cuts {sep : List Char} {pieces : List (List Char)}
    (hsep : sep ∈ kind.separator?) : kind.HasPieces s pieces ↔ Cuts sep s pieces := by
  rw [HasPieces, Option.mem_def.1 hsep]

/-- Blanks make no separator. -/
theorem solid_of_mem_separator? {sep : List Char} (hsep : sep ∈ kind.separator?) :
    sep ≠ [] ∧ ∀ c ∈ sep, isBlank c = false := by
  cases kind with
  | sequential =>
    obtain rfl := Option.some.inj hsep
    exact ⟨by decide, forall_mem_arrow.2 (by decide)⟩
  | parallel =>
    obtain rfl := Option.some.inj hsep
    exact ⟨by decide, List.forall_mem_singleton.2 (by decide)⟩
  | single => cases hsep

theorem ofExpr_eq (s : List Char) :
    ofExpr s = if arrow <:+: s then .sequential else if ',' ∈ s then .parallel else .single := by
  simp only [ofExpr, hasArrow_iff, List.contains_iff_mem]

/-- What is in a piece of an expression is in the expression. -/
theorem infix_of_mem_pieces {piece : List Char} (h : piece ∈ kind.pieces s) : piece <:+: s := by
  cases kind with
  | sequential => exact (cuts_splitArrow s).infix_of_mem h
  | parallel => exact (cuts_splitOn ',' s).infix_of_mem h
  | single => exact List.mem_singleton.1 h ▸ List.infix_rfl

theorem not_infix_of_mem_pieces {sep piece : List Char} (hsep : sep ∈ kind.separator?)
    (h : piece ∈ kind.pieces s) : ¬ sep <:+: piece :=
  ((hasPieces_iff_cuts hsep).1 (hasPieces_iff.2 rfl)).free piece h

end SubStageKind

/-! ## Putting names together -/

section Join

variable {names : List String} {padded : List (List Char)}

/-- There is a separator between two pieces. -/
theorem infix_intercalate {sep : List Char} {pieces : List (List Char)}
    (htwo : 2 ≤ pieces.length) : sep <:+: sep.intercalate pieces := by
  obtain ⟨a, tail, rfl⟩ := List.exists_cons_of_length_pos (Nat.lt_of_lt_of_le Nat.two_pos htwo)
  obtain ⟨b, rest, rfl⟩ := List.exists_cons_of_length_pos (Nat.le_of_succ_le_succ htwo)
  rw [List.intercalate_cons_cons]
  exact ⟨a, sep.intercalate (b :: rest), rfl⟩

/-- A word that is in none of the pieces is not in the text with a character between them that is
not in the word. -/
theorem not_infix_intercalate {w : List Char} {c : Char} (hc : c ∉ w) (hne : w ≠ [])
    {pieces : List (List Char)} (h : ∀ piece ∈ pieces, ¬ w <:+: piece) :
    ¬ w <:+: [c].intercalate pieces := by
  induction pieces with
  | nil => exact fun hin => hne (List.infix_nil.1 hin)
  | cons piece rest ih =>
    obtain ⟨hpiece, hrest⟩ := List.forall_mem_cons.1 h
    cases rest with
    | nil => rwa [List.intercalate_singleton]
    | cons next rest =>
      rw [List.intercalate_cons_cons, List.append_assoc, List.singleton_append]
      intro hin
      rcases infix_append_cons hc hin with hin | hin
      · exact hpiece hin
      · exact ih hrest hin

/-- Blanks around names make no separator. -/
theorem not_infix_of_padded {w : List Char} (hw : ∀ c ∈ w, isBlank c = false) (hne : w ≠ [])
    (h : List.Forall₂ (fun name piece => Padded name.toList piece) names padded)
    (hnames : ∀ name ∈ names, ¬ w <:+: name.toList) : ∀ piece ∈ padded, ¬ w <:+: piece := by
  induction h with
  | nil => exact List.forall_mem_nil _
  | cons hpadded _ ih =>
    obtain ⟨hname, hnames⟩ := List.forall_mem_cons.1 hnames
    exact List.forall_mem_cons.2 ⟨fun hin => hname (hpadded.infix_of_infix hw hne hin), ih hnames⟩

/-- What is put together with a separator has the kind of that separator. -/
theorem ofExpr_intercalate {kind : SubStageKind} {sep : List Char} (hsep : sep ∈ kind.separator?)
    (htwo : 2 ≤ padded.length) (harrow : ∀ piece ∈ padded, ¬ arrow <:+: piece) :
    SubStageKind.ofExpr (sep.intercalate padded) = kind := by
  have hin : sep <:+: sep.intercalate padded := infix_intercalate htwo
  rw [SubStageKind.ofExpr_eq]
  cases kind with
  | sequential =>
    obtain rfl := Option.some.inj hsep
    exact if_pos hin
  | parallel =>
    obtain rfl := Option.some.inj hsep
    rw [if_neg (not_infix_intercalate (by decide) (by decide) harrow),
      if_pos ((List.singleton_infix_iff ',' _).1 hin)]
  | single => cases hsep

/-- Names that are put together with a separator that is in none of them are the names again. -/
theorem deriveSubStages_intercalate {kind : SubStageKind} {sep : List Char}
    (hsep : sep ∈ kind.separator?) (htwo : 2 ≤ names.length)
    (hpadded : List.Forall₂ (fun name piece => Padded name.toList piece) names padded)
    (hisName : ∀ name ∈ names, IsName name) (hfree : ∀ name ∈ names, ¬ sep <:+: name.toList)
    (harrow : ∀ name ∈ names, ¬ arrow <:+: name.toList) :
    deriveSubStages (String.ofList (sep.intercalate padded)) = (kind, names) := by
  have htwo' : 2 ≤ padded.length := hpadded.length_eq ▸ htwo
  have hkind : SubStageKind.ofExpr (sep.intercalate padded) = kind :=
    ofExpr_intercalate hsep htwo'
      (not_infix_of_padded (forall_mem_arrow.2 (by decide)) (by decide) hpadded harrow)
  obtain ⟨hne, hsolid⟩ := SubStageKind.solid_of_mem_separator? hsep
  have hcuts : Cuts sep (sep.intercalate padded) padded :=
    ⟨rfl, not_infix_of_padded hsolid hne hpadded hfree,
      List.ne_nil_of_length_pos (Nat.lt_of_lt_of_le Nat.two_pos htwo')⟩
  have hpieces : padded = kind.pieces (sep.intercalate padded) :=
    SubStageKind.hasPieces_iff.1 ((SubStageKind.hasPieces_iff_cuts hsep).2 hcuts)
  rw [deriveSubStages, String.toList_ofList, hkind, ← hpieces,
    namesOf_eq_of_padded hpadded hisName]

end Join

/-! ## The meaning of an expression -/

/-- The kind and the names are what the expression says. -/
structure Derives (expr : String) (kind : SubStageKind) (names : List String) : Prop where
  /-- An arrow takes precedence over a comma. -/
  decided : kind = if arrow <:+: expr.toList then .sequential
    else if ',' ∈ expr.toList then .parallel else .single
  /-- There is one way to cut the expression at the separator. -/
  cut : ∃! pieces, kind.HasPieces expr.toList pieces
  /-- The names are the pieces that are not blank, trimmed, in order. -/
  named : ∀ pieces, kind.HasPieces expr.toList pieces →
    names.map String.toList = (pieces.map trim).filter (· ≠ [])
  isName : ∀ name ∈ names, IsName name
  /-- The separator is in no name. -/
  free : ∀ name ∈ names, ∀ sep ∈ kind.separator?, ¬ sep <:+: name.toList
  /-- An arrow is in no name, of whatever kind. -/
  arrowFree : ∀ name ∈ names, ¬ arrow <:+: name.toList
  /-- Two names or more give the same kind and the same names when they are put together with the
  separator, with any blanks around each of them. -/
  rejoined : 2 ≤ names.length → ∀ sep ∈ kind.separator?, ∀ padded,
    List.Forall₂ (fun name piece => Padded name.toList piece) names padded →
      deriveSubStages (String.ofList (sep.intercalate padded)) = (kind, names)

section Derived

variable {expr name : String}

theorem exists_piece_of_mem_names (h : name ∈ (deriveSubStages expr).2) :
    ∃ piece ∈ (deriveSubStages expr).1.pieces expr.toList, name.toList <:+: piece := by
  obtain ⟨piece, hpiece, -, hname⟩ := mem_namesOf.1 h
  obtain ⟨before, after, hpadded, -⟩ := exists_blanks piece
  exact ⟨piece, hpiece, before, after, by rw [hname, ← hpadded]⟩

theorem not_infix_of_mem_names (h : name ∈ (deriveSubStages expr).2) {sep : List Char}
    (hsep : sep ∈ (deriveSubStages expr).1.separator?) : ¬ sep <:+: name.toList := by
  intro hname
  obtain ⟨piece, hpiece, hin⟩ := exists_piece_of_mem_names h
  exact SubStageKind.not_infix_of_mem_pieces hsep hpiece (hname.trans hin)

theorem not_arrow_infix_of_mem_names (h : name ∈ (deriveSubStages expr).2) :
    ¬ arrow <:+: name.toList := by
  intro hname
  obtain ⟨piece, hpiece, hin⟩ := exists_piece_of_mem_names h
  have hexpr : arrow <:+: expr.toList :=
    (hname.trans hin).trans (SubStageKind.infix_of_mem_pieces hpiece)
  have hkind : (deriveSubStages expr).1 = .sequential :=
    (SubStageKind.ofExpr_eq _).trans (if_pos hexpr)
  exact not_infix_of_mem_names h (by rw [hkind]; rfl) hname

end Derived

/-- The kind and the names of an expression are what it says. -/
theorem derives_deriveSubStages (expr : String) :
    Derives expr (deriveSubStages expr).1 (deriveSubStages expr).2 where
  decided := SubStageKind.ofExpr_eq _
  cut := ⟨_, SubStageKind.hasPieces_iff.2 rfl, fun _ => SubStageKind.hasPieces_iff.1⟩
  named := by
    intro pieces hpieces
    have hnames : (deriveSubStages expr).2 = namesOf pieces :=
      SubStageKind.hasPieces_iff.1 hpieces ▸ rfl
    rw [hnames, namesOf, List.map_map]
    simp
  isName := fun _ hname => isName_of_mem_namesOf hname
  free := fun _ hname _ hsep => not_infix_of_mem_names hname hsep
  arrowFree := fun _ hname => not_arrow_infix_of_mem_names hname
  rejoined := fun htwo _ hsep _ hpadded =>
    deriveSubStages_intercalate hsep htwo hpadded (fun _ hname => isName_of_mem_namesOf hname)
      (fun _ hname => not_infix_of_mem_names hname hsep)
      (fun _ hname => not_arrow_infix_of_mem_names hname)

-- Names keep what looks like half an arrow, and the separator that is not in force.
example : deriveSubStages "A--> >B , C->" = (.sequential, ["A-", ">B , C"]) := by decide

end Flowline
