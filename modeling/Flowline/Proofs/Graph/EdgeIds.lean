import Flowline.Proofs.Graph.Path

/-!
# The ids of the edges

The id of an edge joins the ids of its ends with `-`. Unlike the ids of nodes it is not numbered
when it is taken, and the joint can be read in two places if the names of stages contain what
looks like the id of a stage. So two edges can get one id:

* `stepId_eq_iff`: two steps have one id if and only if they are the same step or `Clash`.
* `nodup_edgeIds_iff`: the ids are distinct if and only if no two steps clash.
* `nodup_edgeIds_of_plain`: they are if no name of a stage contains `-stage-`.
-/

namespace Flowline.Graph

/-- The id of the edge between two places. -/
def stepId (p : (Category × String) × (Category × String)) : String :=
  edgeId (stageId p.1.1 p.1.2) (stageId p.2.1 p.2.2)

/-- The id of the step `p` can also be cut as that of `q`: the name of the source of `q` continues
the one of `p` into the id of the target of `p`, and the target of `q` is what is left of it. -/
def Clash (p q : (Category × String) × (Category × String)) : Prop :=
  q.1.1 = p.1.1 ∧ ∃ v, q.1.2 = p.1.2 ++ "-stage-" ++ p.2.1.token ++ v ∧
    "-" ++ p.2.2 = v ++ "-stage-" ++ q.2.1.token ++ "-" ++ q.2.2

theorem not_clash_self (p : (Category × String) × (Category × String)) : ¬ Clash p p := by
  rintro ⟨-, v, hsource, -⟩
  have := congrArg String.length hsource
  simp only [String.length_append] at this
  have hlength : "-stage-".length = 7 := rfl
  omega

/-! ## Cutting the id of an edge -/

theorem not_infix_base (c : Category) : ¬ ['-', 's'] <:+: ("stage-" ++ c.token).toList := by
  cases c <;> simp [Category.token, List.infix_cons_iff]

/-- Where `-s` does not occur in `base`, a cut at `-s` cannot lie inside of it. -/
theorem exists_append_of_cut {base w y rest : List Char} (hbase : ¬ ['-', 's'] <:+: base)
    (hrest : rest.head? = some 's') (h : base ++ '-' :: y = w ++ '-' :: rest) :
    ∃ v, w = base ++ v ∧ '-' :: y = v ++ '-' :: rest := by
  rcases List.append_eq_append_iff.1 h with ⟨v, hw, hy⟩ | ⟨k, hk, hcut⟩
  · exact ⟨v, hw, hy⟩
  · cases k with
    | nil => exact ⟨[], by rw [hk, List.append_nil, List.append_nil], hcut.symm⟩
    | cons x k =>
      obtain ⟨hx, htail⟩ := List.cons.inj hcut
      rw [htail] at hrest
      cases k with
      | nil => exact absurd (Option.some.inj hrest) (by decide)
      | cons x' k =>
        have hx' : x' = 's' := Option.some.inj hrest
        refine absurd ⟨w, k, ?_⟩ hbase
        rw [hk, ← hx, hx', List.append_assoc]
        rfl

theorem toList_stageId (c : Category) (stage : String) :
    (stageId c stage).toList = ("stage-" ++ c.token).toList ++ '-' :: stage.toList := by
  simp [stageId]

/-- Two ids of edges that agree are cut in the same place, or the later cut lies in the id of the
target of the other. -/
theorem eq_or_clash_of_append {a b c d : Category × String} {m : List Char}
    (hsource : (stageId c.1 c.2).toList = (stageId a.1 a.2).toList ++ m)
    (htarget : '-' :: (stageId b.1 b.2).toList = m ++ '-' :: (stageId d.1 d.2).toList) :
    (a, b) = (c, d) ∨ Clash (a, b) (c, d) := by
  cases m with
  | nil =>
    have ha := stageId_inj.1 (String.toList_injective (hsource.trans (List.append_nil _)))
    have hb := stageId_inj.1 (String.toList_injective (List.cons.inj htarget).2)
    exact Or.inl (Prod.ext (Prod.ext ha.1.symm ha.2.symm) (Prod.ext hb.1 hb.2))
  | cons x w =>
    obtain ⟨rfl, hcut⟩ := List.cons.inj htarget
    have hhead : (stageId d.1 d.2).toList.head? = some 's' := by simp [stageId]
    rw [toList_stageId b.1] at hcut
    obtain ⟨v, rfl, hv⟩ := exists_append_of_cut (not_infix_base b.1) hhead hcut
    have hname : stageId c.1 c.2 =
        stageId a.1 (a.2 ++ "-stage-" ++ b.1.token ++ String.ofList v) := by
      refine String.toList_injective (hsource.trans ?_)
      simp [stageId]
    obtain ⟨hcategory, hname⟩ := stageId_inj.1 hname
    refine Or.inr ⟨hcategory, String.ofList v, hname, String.toList_injective ?_⟩
    simpa [stageId] using hv

theorem stepId_eq_of_clash {p q : (Category × String) × (Category × String)} (h : Clash p q) :
    stepId p = stepId q := by
  obtain ⟨hcategory, v, hsource, htarget⟩ := h
  have htarget := congrArg String.toList htarget
  refine String.toList_injective ?_
  simp only [stepId, edgeId, stageId, hcategory, hsource]
  simp at htarget ⊢
  exact htarget

/-- Different steps have one id exactly if they clash. -/
theorem stepId_eq_iff (p q : (Category × String) × (Category × String)) :
    stepId p = stepId q ↔ p = q ∨ Clash p q ∨ Clash q p := by
  constructor
  · intro h
    have hlist := congrArg String.toList h
    simp only [stepId, edgeId, String.toList_append, List.append_assoc] at hlist
    have hlist := List.append_cancel_left hlist
    rcases List.append_eq_append_iff.1 hlist with ⟨m, hsource, htarget⟩ | ⟨m, hsource, htarget⟩
    · exact (eq_or_clash_of_append hsource htarget).imp_right Or.inl
    · exact (eq_or_clash_of_append hsource htarget).imp Eq.symm Or.inr
  · rintro (rfl | h | h)
    · rfl
    · exact stepId_eq_of_clash h
    · exact (stepId_eq_of_clash h).symm

/-! ## The edges of a built graph -/

theorem edge_of_mem_edgesAlong {ids : List String} {e : Edge} (h : e ∈ edgesAlong ids) :
    e = edge e.source e.target := by
  fun_induction edgesAlong ids with
  | case1 a b rest ih =>
    rcases List.mem_cons.1 h with rfl | h
    · rfl
    · exact ih h
  | case2 ids _ => cases h

theorem edge_of_mem_edgesAcross {categories : List CategoryNode} {e : Edge}
    (h : e ∈ edgesAcross categories) : e = edge e.source e.target := by
  fun_induction edgesAcross categories with
  | case1 a b rest ih =>
    rcases List.mem_append.1 h with h | h
    · split at h
      · rw [List.mem_singleton.1 h]
        rfl
      · cases h
    · exact ih h
  | case2 categories _ => cases h

theorem edge_of_mem_edgesOf {categories : List CategoryNode} {e : Edge}
    (h : e ∈ edgesOf categories) : e = edge e.source e.target := by
  rcases List.mem_append.1 h with h | h
  · obtain ⟨c, -, h⟩ := List.mem_flatMap.1 h
    exact edge_of_mem_edgesAlong h
  · exact edge_of_mem_edgesAcross h

variable {mapping : Mapping} {spec : Spec}

theorem map_id_edges_perm :
    ((build mapping spec).edges.map Edge.id).Perm ((steps spec.places).map stepId) := by
  have hids : (build mapping spec).edges.map Edge.id =
      ((build mapping spec).edges.map Edge.ends).map fun p => edgeId p.1 p.2 := by
    rw [List.map_map]
    exact List.map_congr_left fun e he => congrArg Edge.id (edge_of_mem_edgesOf he)
  rw [hids]
  refine ((ends_edges_perm spec).map _).trans (List.Perm.of_eq ?_)
  rw [map_id_stages, steps_map, List.map_map]
  rfl

theorem nodup_map_stepId (h : ∀ p ∈ steps spec.places, ∀ q ∈ steps spec.places, ¬ Clash p q) :
    ((steps spec.places).map stepId).Nodup := by
  refine List.Nodup.map_on ?_ (nodup_steps spec.nodup_places)
  intro p hp q hq hid
  rcases (stepId_eq_iff p q).1 hid with hpq | hclash | hclash
  · exact hpq
  · exact absurd hclash (h p hp q hq)
  · exact absurd hclash (h q hq p hp)

variable (mapping spec)

/-- The ids of the edges are distinct exactly if no two steps from stage to stage clash. -/
theorem nodup_edgeIds_iff :
    ((build mapping spec).edges.map Edge.id).Nodup ↔
      ∀ p ∈ steps spec.places, ∀ q ∈ steps spec.places, ¬ Clash p q := by
  rw [map_id_edges_perm.nodup_iff]
  refine ⟨fun hnodup p hp q hq hclash => ?_, nodup_map_stepId⟩
  have hpq : p = q := List.inj_on_of_nodup_map hnodup hp hq (stepId_eq_of_clash hclash)
  exact not_clash_self q (hpq ▸ hclash)

/-- Three stages whose two edges get one id. -/
def clashing : Spec :=
  (((Spec.ofOverall "").insertStage .aws "X-stage-AWS-Y" "a").insertStage .aws "X" "b").insertStage
    .aws "Y-stage-AWS-X" "c"

/-- Names that contain the joint of an id can give two edges one id. -/
theorem not_nodup_edgeIds : ¬ ∀ mapping spec, ((build mapping spec).edges.map Edge.id).Nodup :=
  fun h => absurd (h Mapping.empty clashing) (by decide)

/-- The ids of the edges are distinct if no name of a stage contains the joint of an id. -/
theorem nodup_edgeIds_of_plain
    (h : ∀ place ∈ spec.places, ∀ before after, place.2 ≠ before ++ "-stage-" ++ after) :
    ((build mapping spec).edges.map Edge.id).Nodup := by
  rw [map_id_edges_perm.nodup_iff]
  refine nodup_map_stepId fun p _ q hq hclash => ?_
  obtain ⟨-, v, hsource, -⟩ := hclash
  refine h q.1 (mem_of_mem_steps hq).1 p.1.2 (p.2.1.token ++ v) ?_
  rw [hsource, String.append_assoc]

end Flowline.Graph
