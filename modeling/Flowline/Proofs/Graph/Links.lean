import Flowline.Proofs.Graph.Contents
import Mathlib.Data.List.Chain

/-!
# Following the links of the sub-stages

A link is the id of the sub-stage that runs next, so it is looked up among the sub-stages of the
whole graph. Links are written with the ids that were handed out, and these are distinct: each link
finds the neighbour that it was written for (`after?_of_mem`), whatever the sub-stages are called.

`follow_links`: from the first sub-stage of a sequential stage the links lead through all of its
sub-stages, in order, and end there. Other stages have no links.
-/

namespace Flowline

/-- Sub-stages of one kind. If they run one after the other, each of them links to its neighbour and
the last one to nothing; else there are no links. -/
structure SubStage.Linked (kind : SubStageKind) (subs : List SubStage) : Prop where
  kinds : ∀ sub ∈ subs, sub.kind = kind
  chain : kind = .sequential → subs.IsChain fun a b => a.next = some b.id
  last : kind = .sequential → ∀ sub ∈ subs.getLast?, sub.next = none
  other : kind ≠ .sequential → ∀ sub ∈ subs, sub.next = none

theorem SubStage.Linked.kind_of_mem {s : StageNode} {kind : SubStageKind}
    (h : Linked kind s.subStages) {sub : SubStage} (hsub : sub ∈ s.subStages) :
    s.kind = some kind := by
  obtain ⟨first, rest, hsubs⟩ := List.exists_cons_of_ne_nil (List.ne_nil_of_mem hsub)
  have hfirst : first ∈ s.subStages := hsubs ▸ List.mem_cons_self
  rw [StageNode.kind, hsubs, ← h.kinds first hfirst]
  rfl

namespace Graph

/-- The sub-stage with an id, in whichever stage. -/
def subStage? (g : Graph) (id : String) : Option SubStage := g.subStages.find? fun s => s.id == id

/-- The sub-stage that the link of a sub-stage leads to. -/
def after? (g : Graph) (sub : SubStage) : Option SubStage := sub.next.bind g.subStage?

/-- The first `n` sub-stages on the way that the links lead. -/
def follow (g : Graph) : Nat → Option SubStage → List SubStage
  | n + 1, some sub => sub :: g.follow n (g.after? sub)
  | _, _ => []

/-! ## What is linked -/

theorem isChain_linkNext (subs : List SubStage) :
    (linkNext subs).IsChain fun a b => a.next = some b.id := by
  fun_induction linkNext subs with
  | case1 a b rest ih =>
    refine List.isChain_cons.2 ⟨fun sub hsub => ?_, ih⟩
    -- Linking leaves the id of the neighbour as it was when the link was written.
    have hid := congrArg List.head? (map_linkNext SubStage.id (fun _ _ => rfl) (b :: rest))
    rw [List.head?_map, hsub] at hid
    exact hid.symm
  | case2 subs h =>
    cases subs with
    | nil => exact List.isChain_nil
    | cons a rest =>
      cases rest with
      | nil => exact List.isChain_singleton a
      | cons b rest => exact absurd rfl (h a b rest)

theorem getLast?_linkNext (subs : List SubStage) : (linkNext subs).getLast? = subs.getLast? := by
  fun_induction linkNext subs with
  | case1 a b rest ih =>
    rw [List.getLast?_cons, ih, List.getLast?_cons_cons, List.getLast?_cons]
    rfl
  | case2 subs _ => rfl

theorem linked_link {kind : SubStageKind} {subs : List SubStage}
    (h : ∀ sub ∈ subs, sub.kind = kind ∧ sub.next = none) :
    SubStage.Linked kind (link kind subs) where
  kinds := by
    intro sub hsub
    obtain ⟨made, hmade, next, rfl⟩ := exists_of_mem_link hsub
    exact (h made hmade).1
  chain := by
    intro hkind
    rw [link, if_pos hkind]
    exact isChain_linkNext subs
  last := by
    intro hkind sub hsub
    rw [link, if_pos hkind, getLast?_linkNext] at hsub
    exact (h sub (List.mem_of_getLast? hsub)).2
  other := by
    intro hkind sub hsub
    rw [link, if_neg hkind] at hsub
    exact (h sub hsub).2

theorem exists_linked_of_mem_build {mapping : Mapping} {spec : Spec} {s : StageNode}
    (hs : s ∈ (build mapping spec).stages) : ∃ kind, SubStage.Linked kind s.subStages := by
  obtain ⟨b, hb, hs⟩ := List.mem_flatMap.1 hs
  refine forall_mem_makeBlocks
    (P := fun b => ∀ s ∈ b.stages, ∃ kind, SubStage.Linked kind s.subStages)
    (fun c _ _ entries _ => forall_mem_makeStages (fun _ ids stage expr => ?_) 0 _ entries)
    0 Ids.none spec.subStages.entries b hb s hs
  exact ⟨(deriveSubStages expr).1, linked_link
    (forall_mem_makeSubStages (fun _ _ => ⟨rfl, rfl⟩) (ids.claim (stageId c stage)).2 _)⟩

/-! ## The way that the links lead -/

section Follow

variable {g : Graph}

/-- If each element leads to the next one and the last to nothing, they are the way from the
first. -/
theorem follow_eq_take {subs : List SubStage}
    (hchain : subs.IsChain fun a b => g.after? a = some b)
    (hlast : ∀ sub ∈ subs.getLast?, g.after? sub = none) (n : Nat) :
    g.follow n subs.head? = subs.take n := by
  induction subs generalizing n with
  | nil =>
    cases n with
    | zero => rfl
    | succ n => rfl
  | cons a rest ih =>
    cases n with
    | zero => rfl
    | succ n =>
      obtain ⟨hnext, hrest⟩ := List.isChain_cons.1 hchain
      have hafter : g.after? a = rest.head? := by
        cases rest with
        | nil => exact hlast a rfl
        | cons b rest => exact hnext b rfl
      have hlast' : ∀ sub ∈ rest.getLast?, g.after? sub = none := by
        intro sub hsub
        refine hlast sub ?_
        rw [List.getLast?_cons, hsub]
        rfl
      rw [List.head?_cons, follow, hafter, ih hrest hlast' n, List.take_succ_cons]

end Follow

variable {mapping : Mapping} {spec : Spec}

theorem nodup_subStageIds (mapping : Mapping) (spec : Spec) :
    ((build mapping spec).subStages.map SubStage.id).Nodup :=
  (List.nodup_append.1 (nodup_nodeIds mapping spec)).2.1

theorem subStage?_eq_some_iff {id : String} {sub : SubStage} :
    (build mapping spec).subStage? id = some sub ↔
      sub ∈ (build mapping spec).subStages ∧ sub.id = id := by
  unfold subStage?
  rw [find?_eq_some_iff_of_unique, beq_iff_eq]
  intro x hx y hy hidx hidy
  exact List.inj_on_of_nodup_map (nodup_subStageIds mapping spec) hx hy
    ((beq_iff_eq.1 hidx).trans (beq_iff_eq.1 hidy).symm)

/-- A link to a sub-stage leads to it. -/
theorem after?_of_mem {a b : SubStage} (hb : b ∈ (build mapping spec).subStages)
    (h : a.next = some b.id) : (build mapping spec).after? a = some b := by
  rw [after?, h]
  exact subStage?_eq_some_iff.2 ⟨hb, rfl⟩

theorem mem_subStages_of_mem {s : StageNode} (hs : s ∈ (build mapping spec).stages)
    {sub : SubStage} (hsub : sub ∈ s.subStages) : sub ∈ (build mapping spec).subStages :=
  List.mem_flatMap.2 ⟨s, hs, hsub⟩

/-- A stage shows its entry: its sub-stages have the names and the kind that its expression says.
They have distinct ids. If the stage is sequential, the links lead from its first sub-stage through
all of them in this order, and from the last one nowhere. In a stage of another kind nothing is
linked. -/
theorem follow_links (mapping : Mapping) (spec : Spec) {s : StageNode}
    (hs : s ∈ (build mapping spec).stages) :
    (∃ expr, (spec.stagesOf s.category).get? s.name = some expr ∧
      s.Shows (s.category, s.name, expr)) ∧
    (s.subStages.map SubStage.id).Nodup ∧
    (s.kind = some .sequential →
      (∀ n, (build mapping spec).follow n s.subStages.head? = s.subStages.take n) ∧
        ∀ sub ∈ s.subStages.getLast?, sub.next = none) ∧
    (s.kind ≠ some .sequential → ∀ sub ∈ s.subStages, sub.next = none) := by
  obtain ⟨kind, hlinked⟩ := exists_linked_of_mem_build hs
  refine ⟨?_, ?_, fun hkind => ?_, fun hkind sub hsub => ?_⟩
  · obtain ⟨⟨c, name, expr⟩, hentry, hshows⟩ := exists_shown hs
    refine ⟨expr, ?_, rfl, rfl, hshows.subStageNames, hshows.kind⟩
    rw [hshows.category, hshows.name]
    exact mem_stageEntries.1 hentry
  · have hnodup := nodup_subStageIds mapping spec
    rw [subStages, List.map_flatMap] at hnodup
    exact (List.nodup_flatMap.1 hnodup).1 s hs
  · have hsequential : kind = .sequential := by
      obtain ⟨first, hfirst, hfirstKind⟩ := Option.map_eq_some_iff.1 hkind
      exact (hlinked.kinds first (List.mem_of_head? hfirst)).symm.trans hfirstKind
    refine ⟨follow_eq_take ?_ fun sub hsub => ?_, hlinked.last hsequential⟩
    · exact (hlinked.chain hsequential).imp_of_mem_imp fun a b _ hb h =>
        after?_of_mem (mem_subStages_of_mem hs hb) h
    · rw [after?, hlinked.last hsequential sub hsub]
      rfl
  · refine hlinked.other (fun hsequential => hkind ?_) sub hsub
    rw [hlinked.kind_of_mem hsub, hsequential]

/-- The second stage asks for the ids of the first one, and repeats a name. -/
def repeatedNames : Spec :=
  ((Spec.ofOverall "").insertStage .aws "S-A" "B, C").insertStage .aws "S" "A-B -> A-C -> A-B"

/-- The links lead through the second stage only, and twice to the same name. -/
theorem follow_links_repeatedNames :
    ∃ s ∈ (build Mapping.empty repeatedNames).stages, s.kind = some .sequential ∧
      (∀ n, (build Mapping.empty repeatedNames).follow n s.subStages.head? = s.subStages.take n) ∧
      s.subStages.map (fun sub => (sub.id, sub.name, sub.next)) =
        [("substage-AWS-S-A-B-2", "A-B", some "substage-AWS-S-A-C-2"),
          ("substage-AWS-S-A-C-2", "A-C", some "substage-AWS-S-A-B-3"),
          ("substage-AWS-S-A-B-3", "A-B", none)] := by
  let second := (build Mapping.empty repeatedNames).stages.get ⟨1, by decide⟩
  have hsecond : second ∈ (build Mapping.empty repeatedNames).stages := List.get_mem _ _
  have hkind : second.kind = some .sequential := by decide
  obtain ⟨-, -, hfollow, -⟩ := follow_links Mapping.empty repeatedNames hsecond
  exact ⟨second, hsecond, hkind, (hfollow hkind).1, by decide⟩

end Graph

end Flowline
