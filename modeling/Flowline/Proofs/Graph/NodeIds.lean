import Flowline.Graph.Build
import Flowline.Proofs.Graph.Ids
import Mathlib.Data.List.Perm.Basic

/-!
# The ids of the nodes

All nodes of a graph get their ids from one supply, in the order of the document. A passage of the
builder hands out exactly the ids of the nodes that it makes (`hands_makeStages`,
`exists_hands_makeBlocks`), so no id occurs twice, whatever the names are (`nodup_nodeIds`).

What an id is asked for tells the kinds of nodes apart: the bases of categories, of stages and of
sub-stages begin differently, and those of two stages differ unless category and name agree.
Hence a category or a stage always gets the id that it asks for; only sub-stages are numbered
(`map_id_stages`).
-/

namespace Flowline

/-- The ids of a stage and of its sub-stages. -/
def StageNode.ids (s : StageNode) : List String := s.id :: s.subStages.map SubStage.id

/-- The stages that a specification declares, in order. -/
def Spec.places (spec : Spec) : List (Category × String) :=
  spec.subStages.entries.flatMap fun (c, stages) => stages.keys.map fun stage => (c, stage)

namespace Graph

/-- The ids of a category, its stages and their sub-stages. -/
def Block.ids (b : Block) : List String := b.category.id :: b.stages.flatMap StageNode.ids

/-! ## What ids are asked for -/

theorem stageId_inj {c c' : Category} {stage stage' : String} :
    stageId c stage = stageId c' stage' ↔ c = c' ∧ stage = stage' := by
  constructor
  · intro h
    have hlist := congrArg String.toList h
    cases c <;> cases c' <;> simp [stageId, Category.token] at hlist
    all_goals exact ⟨rfl, String.toList_injective hlist⟩
  · rintro ⟨rfl, rfl⟩
    rfl

theorem categoryId_inj {c c' : Category} : categoryId c = categoryId c' ↔ c = c' := by
  constructor
  · intro h
    cases c <;> cases c' <;> first | rfl | cases h
  · exact congrArg categoryId

theorem stageId_ne_subStageId_append (c c' : Category) (stage stage' name s : String) :
    stageId c stage ≠ subStageId c' stage' name ++ s := by
  intro h
  have hlist := congrArg String.toList h
  simp [stageId, subStageId] at hlist

theorem categoryId_ne_subStageId_append (c c' : Category) (stage name s : String) :
    categoryId c ≠ subStageId c' stage name ++ s := by
  intro h
  have hlist := congrArg String.toList h
  simp [categoryId, subStageId] at hlist

theorem categoryId_ne_stageId (c c' : Category) (stage : String) :
    categoryId c ≠ stageId c' stage := by
  intro h
  have hlist := congrArg String.toList h
  simp [categoryId, stageId] at hlist

/-! ## What the builder makes -/

section Made

variable {mapping : Mapping}

theorem forall_mem_makeSubStages {c : Category} {stage : String} {kind : SubStageKind}
    {P : SubStage → Prop} (h : ∀ id name,
      P ⟨id, name, kind, none, mapping.targetFor c stage name, Record.pending⟩)
    (ids : Ids) (names : List String) :
    ∀ sub ∈ (makeSubStages mapping c stage kind ids names).1, P sub := by
  induction names generalizing ids with
  | nil => exact List.forall_mem_nil _
  | cons name names ih => exact List.forall_mem_cons.2 ⟨h _ name, ih _⟩

/-- Linking sets nothing but the link. -/
theorem exists_of_mem_link {kind : SubStageKind} {subs : List SubStage} {sub : SubStage}
    (h : sub ∈ link kind subs) : ∃ made ∈ subs, ∃ next, sub = { made with next := next } := by
  unfold link at h
  split at h
  · fun_induction linkNext subs with
    | case1 a b rest ih =>
      rcases List.mem_cons.1 h with rfl | h
      · exact ⟨a, List.mem_cons_self, some b.id, rfl⟩
      · obtain ⟨made, hmade, hsub⟩ := ih h
        exact ⟨made, List.mem_cons_of_mem a hmade, hsub⟩
    | case2 rest _ => exact ⟨sub, h, sub.next, rfl⟩
  · exact ⟨sub, h, sub.next, rfl⟩

/-- What holds of every sub-stage that an expression may give, whatever its id and its link. -/
theorem forall_mem_subStages_makeStage {c : Category} {stage expr : String} {P : SubStage → Prop}
    (h : ∀ id name next, P ⟨id, name, (deriveSubStages expr).1, next,
      mapping.targetFor c stage name, Record.pending⟩)
    (parentId : String) (index : Nat) (ids : Ids) :
    ∀ sub ∈ (makeStage mapping c parentId index ids stage expr).1.subStages, P sub := by
  intro sub hsub
  obtain ⟨made, hmade, next, rfl⟩ := exists_of_mem_link hsub
  exact forall_mem_makeSubStages (P := fun made => ∀ next, P { made with next := next }) h _ _ made
    hmade next

theorem forall_mem_makeStages {c : Category} {parentId : String} {P : StageNode → Prop}
    (h : ∀ index ids stage expr, P (makeStage mapping c parentId index ids stage expr).1)
    (index : Nat) (ids : Ids) (entries : List (String × String)) :
    ∀ s ∈ (makeStages mapping c parentId index ids entries).1, P s := by
  induction entries generalizing index ids with
  | nil => exact List.forall_mem_nil _
  | cons entry entries ih =>
    exact List.forall_mem_cons.2 ⟨h index ids entry.1 entry.2, ih _ _⟩

/-- The nodes of the category number `index`. -/
def makeBlock (mapping : Mapping) (c : Category) (index : Nat) (ids : Ids)
    (entries : List (String × String)) : Block :=
  let stages := (makeStages mapping c (ids.claim (categoryId c)).1 0 (ids.claim (categoryId c)).2
    entries).1
  ⟨⟨(ids.claim (categoryId c)).1, c, stages.map StageNode.id, categoryLayout index⟩, stages⟩

theorem forall_mem_makeBlocks {P : Block → Prop}
    (h : ∀ c index ids entries, entries ≠ [] → P (makeBlock mapping c index ids entries))
    (index : Nat) (ids : Ids) (entries : List (Category × Table String String)) :
    ∀ b ∈ makeBlocks mapping index ids entries, P b := by
  induction entries generalizing index ids with
  | nil => exact List.forall_mem_nil _
  | cons entry rest ih =>
    obtain ⟨c, stages⟩ := entry
    rw [makeBlocks]
    split
    · exact ih index ids
    · next hempty =>
      have hne : stages.entries ≠ [] := fun hnil => hempty (List.isEmpty_iff.2 hnil)
      exact List.forall_mem_cons.2 ⟨h c index ids stages.entries hne, ih _ _⟩

end Made

/-! ## What the builder hands out -/

variable (mapping : Mapping)

theorem hands_makeSubStages (c : Category) (stage : String) (kind : SubStageKind) (ids : Ids)
    (names : List String) :
    Ids.Hands ids (makeSubStages mapping c stage kind ids names).2
      ((makeSubStages mapping c stage kind ids names).1.map SubStage.id) := by
  induction names generalizing ids with
  | nil => exact Ids.Hands.refl ids
  | cons name names ih => exact (ids.hands_claim _).append (ih _)

theorem map_linkNext {β : Type} (f : SubStage → β)
    (hf : ∀ sub next, f { sub with next := next } = f sub) (subs : List SubStage) :
    (linkNext subs).map f = subs.map f := by
  fun_induction linkNext subs with
  | case1 a b rest ih =>
    rw [List.map_cons, List.map_cons, hf, ih]
  | case2 rest _ => rfl

/-- Linking changes nothing but the links. -/
theorem map_link {β : Type} (f : SubStage → β)
    (hf : ∀ sub next, f { sub with next := next } = f sub) (kind : SubStageKind)
    (subs : List SubStage) : (link kind subs).map f = subs.map f := by
  unfold link
  split
  · exact map_linkNext f hf subs
  · rfl

theorem hands_makeStage (c : Category) (parentId : String) (index : Nat) (ids : Ids)
    (stage expr : String) :
    Ids.Hands ids (makeStage mapping c parentId index ids stage expr).2
      (makeStage mapping c parentId index ids stage expr).1.ids := by
  have hsubs := hands_makeSubStages mapping c stage (deriveSubStages expr).1
    (ids.claim (stageId c stage)).2 (deriveSubStages expr).2
  rw [← map_link SubStage.id (fun _ _ => rfl) (deriveSubStages expr).1] at hsubs
  exact (ids.hands_claim (stageId c stage)).append hsubs

theorem hands_makeStages (c : Category) (parentId : String) (index : Nat) (ids : Ids)
    (entries : List (String × String)) :
    Ids.Hands ids (makeStages mapping c parentId index ids entries).2
      ((makeStages mapping c parentId index ids entries).1.flatMap StageNode.ids) := by
  induction entries generalizing index ids with
  | nil => exact Ids.Hands.refl ids
  | cons entry entries ih =>
    exact (hands_makeStage mapping c parentId index ids entry.1 entry.2).append (ih _ _)

theorem exists_hands_makeBlocks (index : Nat) (ids : Ids)
    (entries : List (Category × Table String String)) :
    ∃ after, Ids.Hands ids after ((makeBlocks mapping index ids entries).flatMap Block.ids) := by
  induction entries generalizing index ids with
  | nil => exact ⟨ids, Ids.Hands.refl ids⟩
  | cons entry rest ih =>
    obtain ⟨c, stages⟩ := entry
    rw [makeBlocks]
    split
    · exact ih index ids
    · obtain ⟨after, hrest⟩ := ih (index + 1) _
      refine ⟨after, ?_⟩
      exact ((ids.hands_claim (categoryId c)).append
        (hands_makeStages mapping c _ 0 _ stages.entries)).append hrest

/-- Taken by kind, the ids of the nodes are those that were handed out. -/
theorem flatMap_ids_perm (blocks : List Block) :
    (blocks.flatMap Block.ids).Perm
      ((blocks.map Block.category).map CategoryNode.id ++
        (blocks.flatMap Block.stages).map StageNode.id ++
        ((blocks.flatMap Block.stages).flatMap StageNode.subStages).map SubStage.id) := by
  have hcategories := List.map_append_flatMap_perm blocks (fun b => b.category.id)
    fun b => b.stages.flatMap StageNode.ids
  have hstages := List.map_append_flatMap_perm (blocks.flatMap Block.stages) StageNode.id
    fun s => s.subStages.map SubStage.id
  rw [List.map_map, List.map_flatMap (g := StageNode.subStages), List.append_assoc]
  refine hcategories.symm.trans (List.Perm.append_left _ ?_)
  rw [← List.flatMap_assoc]
  exact hstages.symm

/-- The ids of all nodes are distinct, across categories, stages and sub-stages. -/
theorem nodup_nodeIds (spec : Spec) :
    ((build mapping spec).categories.map CategoryNode.id ++
      (build mapping spec).stages.map StageNode.id ++
      (build mapping spec).subStages.map SubStage.id).Nodup := by
  obtain ⟨after, hands⟩ := exists_hands_makeBlocks mapping 0 Ids.none spec.subStages.entries
  exact (flatMap_ids_perm _).nodup_iff.1 hands.nodup

-- The second `A` takes the id that `A-2` asks for.
example :
    (build Mapping.empty ((Spec.ofOverall "").insertStage .aws "S" "A, A, A-2")).subStages.map
      SubStage.id = ["substage-AWS-S-A", "substage-AWS-S-A-2", "substage-AWS-S-A-2-2"] := by
  decide

/-! ## Ids without a number -/

/-- The id begins like that of a sub-stage. -/
def IsSubStageId (id : String) : Prop := ∃ c stage name s, id = subStageId c stage name ++ s

theorem not_isSubStageId_stageId (c : Category) (stage : String) :
    ¬ IsSubStageId (stageId c stage) := by
  rintro ⟨c', stage', name, s, h⟩
  exact stageId_ne_subStageId_append _ _ _ _ _ _ h

theorem not_isSubStageId_categoryId (c : Category) : ¬ IsSubStageId (categoryId c) := by
  rintro ⟨c', stage, name, s, h⟩
  exact categoryId_ne_subStageId_append _ _ _ _ _ h

variable {mapping}

/-- The id of a sub-stage begins with what it is asked for. -/
theorem exists_of_mem_makeSubStages {c : Category} {stage : String} {kind : SubStageKind}
    {ids : Ids} {names : List String} {id : String}
    (h : id ∈ (makeSubStages mapping c stage kind ids names).1.map SubStage.id) :
    ∃ name s, id = subStageId c stage name ++ s := by
  induction names generalizing ids with
  | nil => cases h
  | cons name names ih =>
    rcases List.mem_cons.1 h with rfl | h
    · exact ⟨name, ids.exists_idFor_eq_append (subStageId c stage name)⟩
    · exact ih h

theorem exists_of_mem_makeStage {c : Category} {parentId : String} {index : Nat} {ids : Ids}
    {stage expr id : String}
    (h : id ∈ (makeStage mapping c parentId index ids stage expr).1.subStages.map SubStage.id) :
    ∃ name s, id = subStageId c stage name ++ s := by
  have hlinked := map_link SubStage.id (fun _ _ => rfl) (deriveSubStages expr).1
    (makeSubStages mapping c stage (deriveSubStages expr).1 (ids.claim (stageId c stage)).2
      (deriveSubStages expr).2).1
  exact exists_of_mem_makeSubStages (hlinked ▸ h)

theorem isSubStageId_of_mem_makeStage {c : Category} {parentId : String} {index : Nat} {ids : Ids}
    {stage expr id : String}
    (h : id ∈ (makeStage mapping c parentId index ids stage expr).1.subStages.map SubStage.id) :
    IsSubStageId id := ⟨c, stage, exists_of_mem_makeStage h⟩

/-- Beside the ids of the stages only ids of sub-stages are handed out. -/
theorem mem_ids_makeStages {c : Category} {parentId : String} {index : Nat} {ids : Ids}
    {entries : List (String × String)} {id : String}
    (h : id ∈ (makeStages mapping c parentId index ids entries).1.flatMap StageNode.ids) :
    id ∈ (makeStages mapping c parentId index ids entries).1.map StageNode.id ∨
      IsSubStageId id := by
  induction entries generalizing index ids with
  | nil => cases h
  | cons entry entries ih =>
    rw [makeStages, List.flatMap_cons, List.mem_append] at h
    rw [makeStages, List.map_cons, List.mem_cons]
    rcases h with h | h
    · rcases List.mem_cons.1 h with rfl | h
      · exact Or.inl (Or.inl rfl)
      · exact Or.inr (isSubStageId_of_mem_makeStage h)
    · rcases ih h with h | h
      · exact Or.inl (Or.inr h)
      · exact Or.inr h

theorem mem_used_makeStages {c : Category} {parentId : String} {index : Nat} {ids : Ids}
    {entries : List (String × String)} {id : String}
    (h : id ∈ (makeStages mapping c parentId index ids entries).2.used)
    (hsub : ¬ IsSubStageId id) :
    id ∈ (makeStages mapping c parentId index ids entries).1.map StageNode.id ∨ id ∈ ids.used := by
  rcases ((hands_makeStages mapping c parentId index ids entries).used id).1 h with h | h
  · exact Or.inl ((mem_ids_makeStages h).resolve_right hsub)
  · exact Or.inr h

/-- Stages get the ids that they ask for, if none of these is in use. -/
theorem map_id_makeStages {c : Category} {parentId : String} {index : Nat} {ids : Ids}
    {entries : List (String × String)} (hnodup : (entries.map Prod.fst).Nodup)
    (hfree : ∀ stage ∈ entries.map Prod.fst, stageId c stage ∉ ids.used) :
    (makeStages mapping c parentId index ids entries).1.map StageNode.id =
      (entries.map Prod.fst).map (stageId c) := by
  induction entries generalizing index ids with
  | nil => rfl
  | cons entry entries ih =>
    obtain ⟨stage, expr⟩ := entry
    obtain ⟨hnot, hnodup⟩ := List.nodup_cons.1 hnodup
    have hid : (makeStage mapping c parentId index ids stage expr).1.id = stageId c stage :=
      Ids.idFor_of_not_mem (hfree stage List.mem_cons_self)
    rw [makeStages, List.map_cons, hid, ih hnodup]
    · rfl
    · intro stage' hmem hused
      rcases ((hands_makeStage mapping c parentId index ids stage expr).used _).1 hused with h | h
      · rcases List.mem_cons.1 h with h | h
        · rw [hid, stageId_inj] at h
          exact hnot (h.2 ▸ hmem)
        · exact not_isSubStageId_stageId c stage' (isSubStageId_of_mem_makeStage h)
      · exact hfree stage' (List.mem_cons_of_mem _ hmem) h

section AfterStages

variable {c c' : Category} {parentId : String} {index : Nat} {ids : Ids}
  {entries : List (String × String)} (hnodup : (entries.map Prod.fst).Nodup)
  (hfree : ∀ stage ∈ entries.map Prod.fst, stageId c stage ∉ ids.used)
include hnodup hfree

theorem categoryId_mem_used_makeStages
    (h : categoryId c' ∈ (makeStages mapping c parentId index ids entries).2.used) :
    categoryId c' ∈ ids.used := by
  rcases mem_used_makeStages h (not_isSubStageId_categoryId c') with h | h
  · rw [map_id_makeStages hnodup hfree] at h
    obtain ⟨stage, -, heq⟩ := List.mem_map.1 h
    exact absurd heq.symm (categoryId_ne_stageId c' c stage)
  · exact h

theorem stageId_mem_used_makeStages {stage : String}
    (h : stageId c' stage ∈ (makeStages mapping c parentId index ids entries).2.used) :
    c' = c ∨ stageId c' stage ∈ ids.used := by
  rcases mem_used_makeStages h (not_isSubStageId_stageId c' stage) with h | h
  · rw [map_id_makeStages hnodup hfree] at h
    obtain ⟨stage', -, heq⟩ := List.mem_map.1 h
    exact Or.inl (stageId_inj.1 heq).1.symm
  · exact Or.inr h

end AfterStages

/-- What categories and their stages ask for is not in use. -/
def Spares (ids : Ids) (cs : List Category) : Prop :=
  ∀ c ∈ cs, categoryId c ∉ ids.used ∧ ∀ stage, stageId c stage ∉ ids.used

theorem spares_none (cs : List Category) : Spares Ids.none cs :=
  fun _ _ => ⟨List.not_mem_nil, fun _ => List.not_mem_nil⟩

section Spares

variable {c : Category} {cs : List Category} {ids : Ids} (h : Spares ids (c :: cs))
include h

/-- The id of a category is none that its stages ask for. -/
theorem Spares.stageId_not_mem (stage : String) : stageId c stage ∉ categoryId c :: ids.used := by
  intro hmem
  rcases List.mem_cons.1 hmem with hid | hid
  · exact categoryId_ne_stageId c c stage hid.symm
  · exact (h c List.mem_cons_self).2 stage hid

theorem Spares.map_id_makeStages (stages : Table String String) :
    (makeStages mapping c (categoryId c) 0 ⟨categoryId c :: ids.used⟩ stages.entries).1.map
      StageNode.id = stages.keys.map (stageId c) :=
  Graph.map_id_makeStages stages.keys_nodup fun stage _ => h.stageId_not_mem stage

/-- What a category and its stages have taken is asked for by no other category. -/
theorem Spares.makeStages (hnot : c ∉ cs) (stages : Table String String) :
    Spares (makeStages mapping c (categoryId c) 0 ⟨categoryId c :: ids.used⟩ stages.entries).2
      cs := by
  have hfree := fun stage (_ : stage ∈ stages.entries.map Prod.fst) => h.stageId_not_mem stage
  intro c' hc'
  have hne : c' ≠ c := fun heq => hnot (heq ▸ hc')
  obtain ⟨hcategory, hstage⟩ := h c' (List.mem_cons_of_mem _ hc')
  constructor
  · intro hused
    rcases List.mem_cons.1 (categoryId_mem_used_makeStages stages.keys_nodup hfree hused)
      with hid | hid
    · exact hne (categoryId_inj.1 hid)
    · exact hcategory hid
  · intro stage hused
    rcases stageId_mem_used_makeStages stages.keys_nodup hfree hused with heq | hmem
    · exact hne heq
    · rcases List.mem_cons.1 hmem with hid | hid
      · exact categoryId_ne_stageId c c' stage hid.symm
      · exact hstage stage hid

end Spares

/-- Categories and their stages get the ids that they ask for, if none of these is in use. -/
theorem ids_makeBlocks {index : Nat} {ids : Ids} {entries : List (Category × Table String String)}
    (hnodup : (entries.map Prod.fst).Nodup) (hspares : Spares ids (entries.map Prod.fst)) :
    (∀ b ∈ makeBlocks mapping index ids entries, b.category.id = categoryId b.category.name) ∧
      ((makeBlocks mapping index ids entries).flatMap Block.stages).map StageNode.id =
        entries.flatMap fun entry => entry.2.keys.map (stageId entry.1) := by
  induction entries generalizing index ids with
  | nil => exact ⟨by simp [makeBlocks], rfl⟩
  | cons entry rest ih =>
    obtain ⟨c, stages⟩ := entry
    obtain ⟨hnot, hnodup⟩ := List.nodup_cons.1 hnodup
    rw [makeBlocks]
    split
    · next hempty =>
      have hkeys : stages.keys = [] := List.map_eq_nil_iff.2 (List.isEmpty_iff.1 hempty)
      rw [List.flatMap_cons, hkeys]
      exact ih hnodup fun c' hc' => hspares c' (List.mem_cons_of_mem _ hc')
    · obtain ⟨hcategories, hrest⟩ := ih hnodup (hspares.makeStages hnot stages)
      rw [Ids.claim_of_not_mem (hspares c List.mem_cons_self).1]
      refine ⟨List.forall_mem_cons.2 ⟨rfl, hcategories⟩, ?_⟩
      rw [List.flatMap_cons, List.map_append, List.flatMap_cons,
        ← hspares.map_id_makeStages stages]
      exact congrArg _ hrest

theorem categoryId_of_mem_build (spec : Spec) :
    ∀ c ∈ (build mapping spec).categories, c.id = categoryId c.name := by
  intro c hc
  obtain ⟨b, hb, rfl⟩ := List.mem_map.1 hc
  exact (ids_makeBlocks spec.subStages.keys_nodup (spares_none _)).1 b hb

/-- The stages have the ids of the places that the specification declares, in order. -/
theorem map_id_stages (spec : Spec) :
    (build mapping spec).stages.map StageNode.id =
      spec.places.map fun (c, stage) => stageId c stage := by
  refine (ids_makeBlocks spec.subStages.keys_nodup (spares_none _)).2.trans ?_
  rw [Spec.places, List.map_flatMap]
  simp [Function.comp_def]

end Graph

end Flowline
