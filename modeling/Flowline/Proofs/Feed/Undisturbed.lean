import Flowline.Proofs.Feed.Apart
import Flowline.Proofs.Feed.Subscriptions

/-!
# Subscriptions that do not disturb each other

A run of a consumer is compared with the run that leaves out the calls about other flows. If the
source keeps flows apart, then the two are `Parallel` as to a flow, up to one thing: ending a
subscription to another flow lets everything happen that is due, so that the subscription to this
flow may have its turn earlier at the same instant (`parallel_performAll`). That shows if it is
ended itself at that very instant, which `InTime` excludes.
-/

namespace Flowline.Subscriptions

variable {σ π : Type} {part : String → σ → π} {flow : String} {ids ids' : List Nat}
  {t u : Subscriptions σ}

/-! ## Runs that are in time, and runs that are undisturbed -/

def Move.passesTime : Move → Bool
  | advance n => n != 0
  | _ => false

/-- The subscription to a flow is due. -/
def IsDue (t : Subscriptions σ) (flow : String) : Prop := ∃ s ∈ t.feed.due, s.flowName = flow

/-- Since time passed last, a call about another flow has ended a subscription. -/
def OtherEnded (t : Subscriptions σ) (flow : String) (moves : List Move) : Prop :=
  ∃ earlier b later name, moves = earlier ++ b :: later ∧
    (∀ c ∈ later, c.passesTime = false) ∧ b.isFor flow = false ∧ b.ends name = true ∧
    (t.performAll earlier).contains name = true

/-- The subscription to the flow is not ended at an instant at which it is due and another one has
been ended before. -/
def InTime (t : Subscriptions σ) (flow : String) (moves : List Move) : Prop :=
  ∀ earlier a later, moves = earlier ++ a :: later → a.ends flow = true →
    (t.performAll (earlier.filter (Move.isFor flow))).IsDue flow → ¬ t.OtherEnded flow earlier

/-- The calls about other flows do not change what the listeners of a flow have received when time
passes again. -/
def Undisturbed (t : Subscriptions σ) (flow : String) (moves : List Move) : Prop :=
  ∀ n, t.received flow (moves ++ [.advance (n + 1)]) =
    t.received flow (moves.filter (Move.isFor flow) ++ [.advance (n + 1)])

/-! ## Runs side by side -/

/-- A consumer whose subscriptions to a flow have had the ids `ids`. -/
structure Fit (part : String → σ → π) (flow : String) (ids : List Nat) (t : Subscriptions σ) :
    Prop where
  tidy : t.Tidy
  ordered : t.feed.Ordered part flow ids
  taken : ∀ id ∈ ids, id < t.feed.nextId

/-- Two consumers who have the same of a flow. -/
structure Parallel (part : String → σ → π) (flow : String) (ids ids' : List Nat)
    (t u : Subscriptions σ) : Prop where
  left : Fit part flow ids t
  right : Fit part flow ids' u
  alike : t.feed.Alike part flow ids ids' u.feed
  length : ids.length = ids'.length

theorem Fit.nextId_not_mem (h : Fit part flow ids t) : t.feed.nextId ∉ ids :=
  fun hmem => Nat.lt_irrefl _ (h.taken _ hmem)

/-- Everything happens that is due. -/
def settle (t : Subscriptions σ) : Subscriptions σ := { t with feed := t.feed.settle }

theorem Fit.settle (h : Fit part flow ids t) : Fit part flow ids t.settle where
  tidy := h.tidy.settle
  ordered := h.ordered.settle
  taken := (Feed.sameFrame_settle t.feed).nextId.symm ▸ h.taken

theorem Fit.advance (h : Fit part flow ids t) (n : Nat) : Fit part flow ids (t.advance n) where
  tidy := h.tidy.advance n
  ordered := h.ordered.advance n
  taken := (Feed.sameFrame_advance n t.feed).nextId.symm ▸ h.taken

theorem Parallel.settle (h : Parallel part flow ids ids' t u) :
    Parallel part flow ids ids' t.settle u.settle :=
  ⟨h.left.settle, h.right.settle, h.alike.settle h.left.ordered h.right.ordered, h.length⟩

theorem Parallel.advance (h : Parallel part flow ids ids' t u) (n : Nat) :
    Parallel part flow ids ids' (t.advance n) (u.advance n) :=
  ⟨h.left.advance n, h.right.advance n, h.alike.advance h.left.ordered h.right.ordered n, h.length⟩

/-- What is due happens anyway before time passes. -/
theorem advance_settle (t : Subscriptions σ) (n : Nat) :
    t.settle.advance (n + 1) = t.advance (n + 1) := by
  have hnext : t.feed.settle.nextInstant = t.feed.nextInstant := by
    unfold Feed.nextInstant
    rw [Feed.settle_settle, Feed.now_settle]
  unfold settle advance
  rw [Feed.advance_succ, Feed.advance_succ, hnext]

theorem Parallel.advance_of_settle (h : Parallel part flow ids ids' t u.settle) (n : Nat) :
    Parallel part flow ids ids' (t.advance (n + 1)) (u.advance (n + 1)) := by
  rw [← advance_settle u]
  exact h.advance (n + 1)

theorem Fit.alike_settle (h : Fit part flow ids t) (hdue : ¬ t.IsDue flow) :
    t.feed.Alike part flow ids ids t.settle.feed := by
  apply Feed.alike_settle h.ordered
  intro s hs hflow
  exact hdue ⟨s, hs, hflow⟩

/-! ## Ending subscriptions -/

theorem ordered_unsubscribe {f : Feed σ} (h : f.Ordered part flow ids) (ended : List Nat) :
    (f.unsubscribe ended).Ordered part flow ids := by
  unfold Feed.unsubscribe
  split
  · exact (h.cancel ended).settle
  · exact h

/-- When the subscription to the flow has been cancelled, what else is due makes no difference. -/
theorem alike_unsubscribe_of_mem {f : Feed σ} (h : f.Ordered part flow ids) {ended : List Nat}
    (hended : ∀ s ∈ f.subscriptions, s.flowName = flow → s.id ∈ ended) :
    (f.cancel ended).Alike part flow ids ids (f.unsubscribe ended) := by
  unfold Feed.unsubscribe
  split
  · apply Feed.alike_settle (h.cancel ended)
    intro s hs hflow
    obtain ⟨hs, hid⟩ := mem_subscriptions_cancel.1 (List.mem_filter.1 hs).1
    exact hid (hended s hs hflow)
  · next hlive =>
    rw [Feed.cancel_of_not_live (by simpa using hlive)]
    exact Feed.Alike.refl f

/-- Ending other subscriptions lets happen what is due, if there are any. -/
theorem alike_unsubscribe_of_not_mem {f : Feed σ} (h : f.Ordered part flow ids) {ended : List Nat}
    (hended : ∀ s ∈ f.subscriptions, s.flowName = flow → s.id ∉ ended) :
    f.Alike part flow ids ids (f.unsubscribe ended) ∨
      f.settle.Alike part flow ids ids (f.unsubscribe ended) := by
  unfold Feed.unsubscribe
  split
  · exact .inr ((Feed.alike_cancel hended).settle h (h.cancel ended))
  · exact .inl (Feed.Alike.refl f)

theorem Fit.unsubscribe (h : Fit part flow ids t) (name : String) :
    Fit part flow ids (t.unsubscribe name) where
  tidy := h.tidy.unsubscribe name
  ordered := feed_unsubscribe t name ▸ ordered_unsubscribe h.ordered _
  taken := by
    rw [feed_unsubscribe, Feed.nextId_unsubscribe]
    exact h.taken

theorem Fit.unsubscribeAll (h : Fit part flow ids t) : Fit part flow ids t.unsubscribeAll where
  tidy := h.tidy.unsubscribeAll
  ordered := ordered_unsubscribe h.ordered _
  taken := by
    have hnext : t.unsubscribeAll.feed.nextId = t.feed.nextId := Feed.nextId_unsubscribe _ _
    rw [hnext]
    exact h.taken

theorem Fit.mem_idsOf (h : Fit part flow ids t) :
    ∀ s ∈ t.feed.subscriptions, s.flowName = flow → s.id ∈ t.idsOf flow := by
  rintro s hs rfl
  exact Subscriptions.mem_idsOf.2 (h.tidy.filed s hs)

theorem Fit.mem_values (h : Fit part flow ids t) :
    ∀ s ∈ t.feed.subscriptions, s.flowName = flow → s.id ∈ t.ids.values :=
  fun s hs _ => mem_values_of_get? (h.tidy.filed s hs)

theorem Parallel.unsubscribe (h : Parallel part flow ids ids' t u) :
    Parallel part flow ids ids' (t.unsubscribe flow) (u.unsubscribe flow) := by
  refine ⟨h.left.unsubscribe flow, h.right.unsubscribe flow, ?_, h.length⟩
  rw [feed_unsubscribe, feed_unsubscribe]
  exact (alike_unsubscribe_of_mem h.left.ordered h.left.mem_idsOf).symm.trans
    ((h.alike.cancel h.left.mem_idsOf h.right.mem_idsOf).trans
      (alike_unsubscribe_of_mem h.right.ordered h.right.mem_idsOf))

theorem Parallel.unsubscribeAll (h : Parallel part flow ids ids' t u) :
    Parallel part flow ids ids' t.unsubscribeAll u.unsubscribeAll := by
  refine ⟨h.left.unsubscribeAll, h.right.unsubscribeAll, ?_, h.length⟩
  exact (alike_unsubscribe_of_mem h.left.ordered h.left.mem_values).symm.trans
    ((h.alike.cancel h.left.mem_values h.right.mem_values).trans
      (alike_unsubscribe_of_mem h.right.ordered h.right.mem_values))

/-! ## Calls -/

theorem Fit.subscribe (h : Fit part flow ids t) (period : Nat) :
    Fit part flow (ids ++ [(t.unsubscribe flow).feed.nextId]) (t.subscribe flow period).2 where
  tidy := h.tidy.subscribe flow period
  ordered := (h.unsubscribe flow).ordered.subscribe (h.unsubscribe flow).tidy.numbered period
  taken := by
    intro id hid
    rcases List.mem_append.1 hid with hid | hid
    · exact Nat.lt_succ_of_lt ((h.unsubscribe flow).taken id hid)
    · rw [List.mem_singleton.1 hid]
      exact Nat.lt_succ_self _

@[simp] theorem begun_unsubscribe (t : Subscriptions σ) (flow name : String) :
    t.begun flow (.unsubscribe name) = [] := rfl

@[simp] theorem begun_unsubscribeAll (t : Subscriptions σ) (flow : String) :
    t.begun flow .unsubscribeAll = [] := rfl

@[simp] theorem begun_advance (t : Subscriptions σ) (flow : String) (n : Nat) :
    t.begun flow (.advance n) = [] := rfl

/-- A call that ends the subscription to the flow does the same to both. -/
theorem Parallel.perform_of_ends (h : Parallel part flow ids ids' t u) {a : Move}
    (ha : a.ends flow = true) :
    Parallel part flow (ids ++ t.begun flow a) (ids' ++ u.begun flow a) (t.perform a).2
      (u.perform a).2 := by
  cases a with
  | subscribe name period =>
    obtain rfl : name = flow := by simpa [Move.ends] using ha
    have hended := h.unsubscribe
    rw [begun, begun, if_pos rfl, if_pos rfl]
    refine ⟨h.left.subscribe period, h.right.subscribe period, ?_, ?_⟩
    · exact hended.alike.subscribe hended.left.tidy.numbered hended.right.tidy.numbered
        hended.left.nextId_not_mem hended.right.nextId_not_mem h.length period
    · rw [List.length_append, List.length_append, h.length]
      rfl
  | unsubscribe name =>
    obtain rfl : name = flow := by simpa [Move.ends] using ha
    simp only [begun_unsubscribe, List.append_nil]
    exact h.unsubscribe
  | unsubscribeAll =>
    simp only [begun_unsubscribeAll, List.append_nil]
    exact h.unsubscribeAll
  | advance n => cases ha

theorem begun_of_isFor_eq_false {a : Move} (ha : a.isFor flow = false) : t.begun flow a = [] := by
  cases a with
  | subscribe name period =>
    have hne : name ≠ flow := by simpa [Move.isFor, Move.ends] using ha
    exact if_neg hne
  | unsubscribe name => rfl
  | unsubscribeAll => rfl
  | advance n => rfl

theorem Fit.alike_unsubscribe_of_ne (h : Fit part flow ids t) {name : String} (hne : name ≠ flow) :
    t.feed.Alike part flow ids ids (t.unsubscribe name).feed ∨
      t.contains name = true ∧ t.settle.feed.Alike part flow ids ids (t.unsubscribe name).feed := by
  rw [feed_unsubscribe]
  cases hcontains : t.contains name with
  | false =>
    have hnone : t.idsOf name = [] := by
      rw [idsOf, Option.toList_eq_nil_iff]
      exact Option.isNone_iff_eq_none.1 (Option.isSome_eq_false_iff.1 hcontains)
    rw [hnone]
    exact .inl (Feed.Alike.refl t.feed)
  | true =>
    apply (alike_unsubscribe_of_not_mem h.ordered _).imp_right fun halike => ⟨rfl, halike⟩
    rintro s hs rfl hid
    exact hne (h.tidy.distinct _ _ _ (Subscriptions.mem_idsOf.1 hid) (h.tidy.filed s hs))

/-- A call about another flow makes no difference, unless it ends a subscription and so lets happen
what is due. -/
theorem Fit.perform_of_isFor_eq_false (h : Fit part flow ids t) {a : Move}
    (ha : a.isFor flow = false) :
    Fit part flow ids (t.perform a).2 ∧
      (t.feed.Alike part flow ids ids (t.perform a).2.feed ∨
        (∃ name, a.ends name = true ∧ t.contains name = true) ∧
          t.settle.feed.Alike part flow ids ids (t.perform a).2.feed) := by
  cases a with
  | subscribe name period =>
    have hne : name ≠ flow := by simpa [Move.isFor, Move.ends] using ha
    have hended := h.unsubscribe name
    have hordered := hended.ordered.subscribe_of_ne hended.nextId_not_mem name period
    have hbegun : (t.unsubscribe name).feed.Alike part flow ids ids
        (t.subscribe name period).2.feed := Feed.alike_subscribe hne period
    refine ⟨⟨h.tidy.subscribe name period, hordered, ?_⟩, ?_⟩
    · exact fun id hid => Nat.lt_succ_of_lt (hended.taken id hid)
    · rcases h.alike_unsubscribe_of_ne hne with halike | ⟨hcontains, halike⟩
      · exact .inl (halike.trans hbegun)
      · exact .inr ⟨⟨name, beq_self_eq_true name, hcontains⟩, halike.trans hbegun⟩
  | unsubscribe name =>
    have hne : name ≠ flow := by simpa [Move.isFor, Move.ends] using ha
    refine ⟨h.unsubscribe name, ?_⟩
    rcases h.alike_unsubscribe_of_ne hne with halike | ⟨hcontains, halike⟩
    · exact .inl halike
    · exact .inr ⟨⟨name, beq_self_eq_true name, hcontains⟩, halike⟩
  | unsubscribeAll => cases ha
  | advance n => cases ha

theorem Parallel.perform_of_isFor_eq_false (h : Parallel part flow ids ids' t u) {a : Move}
    (ha : a.isFor flow = false) :
    Parallel part flow ids ids' (t.perform a).2 u ∨
      (∃ name, a.ends name = true ∧ t.contains name = true) ∧
        Parallel part flow ids ids' (t.perform a).2 u.settle := by
  obtain ⟨hfit, halike⟩ := h.left.perform_of_isFor_eq_false ha
  rcases halike with halike | ⟨hended, halike⟩
  · exact .inl ⟨hfit, h.right, halike.symm.trans h.alike, h.length⟩
  · exact .inr ⟨hended, hfit, h.right.settle, halike.symm.trans h.settle.alike, h.length⟩

/-- A move not just about other flows lets time pass or ends the subscription to this one. -/
theorem eq_advance_or_ends {a : Move} (ha : a.isFor flow = true) :
    (∃ n, a = .advance n) ∨ a.ends flow = true := by
  cases a with
  | advance n => exact .inl ⟨n, rfl⟩
  | subscribe name period => exact .inr ha
  | unsubscribe name => exact .inr ha
  | unsubscribeAll => exact .inr ha

theorem Fit.perform (h : Fit part flow ids t) (a : Move) :
    Fit part flow (ids ++ t.begun flow a) (t.perform a).2 := by
  cases ha : a.isFor flow with
  | false =>
    rw [begun_of_isFor_eq_false ha, List.append_nil]
    exact (h.perform_of_isFor_eq_false ha).1
  | true =>
    rcases eq_advance_or_ends ha with ⟨n, rfl⟩ | hends
    · exact (List.append_nil ids).symm ▸ h.advance n
    · have hself : Parallel part flow ids ids t t := ⟨h, h, Feed.Alike.refl t.feed, rfl⟩
      exact (hself.perform_of_ends hends).left

/-! ## Runs -/

theorem begunAll_concat (t : Subscriptions σ) (flow : String) (moves : List Move) (a : Move) :
    t.begunAll flow (moves ++ [a]) =
      t.begunAll flow moves ++ (t.performAll moves).begun flow a := by
  induction moves generalizing t with
  | nil => simp [begunAll, performAll]
  | cons b moves ih =>
    rw [List.cons_append, begunAll, begunAll, ih, List.append_assoc]
    rfl

theorem OtherEnded.concat {moves : List Move} (h : t.OtherEnded flow moves) {a : Move}
    (ha : a.passesTime = false) : t.OtherEnded flow (moves ++ [a]) := by
  obtain ⟨earlier, b, later, name, rfl, hlater, hb⟩ := h
  refine ⟨earlier, b, later ++ [a], name, by simp, ?_, hb⟩
  intro c hc
  rcases List.mem_append.1 hc with hc | hc
  · exact hlater c hc
  · rw [List.mem_singleton.1 hc]
    exact ha

theorem passesTime_of_isFor_eq_false {a : Move} (ha : a.isFor flow = false) :
    a.passesTime = false := by
  cases a with
  | advance n => cases ha
  | subscribe name period => rfl
  | unsubscribe name => rfl
  | unsubscribeAll => rfl

theorem filter_concat (flow : String) (moves : List Move) (a : Move) :
    (moves ++ [a]).filter (Move.isFor flow) =
      moves.filter (Move.isFor flow) ++ if a.isFor flow then [a] else [] := by
  rw [List.filter_append, List.filter_singleton, Bool.cond_eq_ite]

theorem InTime.of_concat {moves : List Move} {a : Move} (h : t.InTime flow (moves ++ [a])) :
    t.InTime flow moves := by
  rintro earlier b later rfl
  exact h earlier b (later ++ [a]) (by simp)

theorem fit_performAll (ht : Fit part flow [] t) (moves : List Move) :
    Fit part flow (t.begunAll flow moves) (t.performAll moves) := by
  induction moves using List.reverseRecOn with
  | nil => exact ht
  | append_singleton moves a ih =>
    rw [performAll_concat, begunAll_concat]
    exact ih.perform a

theorem settle_settle (t : Subscriptions σ) : t.settle.settle = t.settle :=
  congrArg (fun f => Subscriptions.mk f t.ids) (Feed.settle_settle t.feed)

/-- The two runs are parallel, or they are once everything has happened that is due, and then a
subscription to another flow has been ended at this instant. -/
theorem parallel_performAll (ht : Fit part flow [] t) {moves : List Move}
    (hmoves : t.InTime flow moves) :
    Parallel part flow (t.begunAll flow moves)
      (t.begunAll flow (moves.filter (Move.isFor flow))) (t.performAll moves)
      (t.performAll (moves.filter (Move.isFor flow))) ∨
    t.OtherEnded flow moves ∧
      Parallel part flow (t.begunAll flow moves)
        (t.begunAll flow (moves.filter (Move.isFor flow))) (t.performAll moves)
        (t.performAll (moves.filter (Move.isFor flow))).settle := by
  induction moves using List.reverseRecOn with
  | nil => exact .inl ⟨ht, ht, Feed.Alike.refl t.feed, rfl⟩
  | append_singleton moves a ih =>
    have hrun := ih hmoves.of_concat
    have hfit := fit_performAll ht (moves.filter (Move.isFor flow))
    rw [filter_concat, performAll_concat, begunAll_concat]
    cases ha : a.isFor flow with
    | false =>
      rw [if_neg Bool.false_ne_true, List.append_nil, begun_of_isFor_eq_false ha, List.append_nil]
      rcases hrun with h | ⟨hended, h⟩
      · rcases h.perform_of_isFor_eq_false ha with hlater | ⟨⟨name, hname, hcontains⟩, hlater⟩
        · exact .inl hlater
        · exact .inr ⟨⟨moves, a, [], name, rfl, nofun, ha, hname, hcontains⟩, hlater⟩
      · have hagain := hended.concat (passesTime_of_isFor_eq_false ha)
        rcases h.perform_of_isFor_eq_false ha with hlater | ⟨-, hlater⟩
        · exact .inr ⟨hagain, hlater⟩
        · rw [settle_settle] at hlater
          exact .inr ⟨hagain, hlater⟩
    | true =>
      rw [if_pos rfl, performAll_concat, begunAll_concat]
      rcases eq_advance_or_ends ha with ⟨n, rfl⟩ | hends
      · simp only [begun_advance, List.append_nil]
        cases n with
        | zero => exact hrun.imp_right fun h => ⟨h.1.concat rfl, h.2⟩
        | succ n =>
          rcases hrun with h | ⟨-, h⟩
          · exact .inl (h.advance (n + 1))
          · exact .inl (h.advance_of_settle n)
      · refine .inl (Parallel.perform_of_ends ?_ hends)
        rcases hrun with h | ⟨hended, h⟩
        · exact h
        · -- The subscription is not due, so that nothing has happened too early.
          have hdue : ¬ (t.performAll (moves.filter (Move.isFor flow))).IsDue flow :=
            fun hdue => hmoves moves a [] rfl hends hdue hended
          exact ⟨h.left, hfit, h.alike.trans (hfit.alike_settle hdue).symm, h.length⟩

/-- Calls about other flows do not disturb the listeners of a flow. -/
theorem undisturbed_of_inTime (ht : Fit part flow [] t) {moves : List Move}
    (hmoves : t.InTime flow moves) : t.Undisturbed flow moves := by
  intro n
  have hlast : Parallel part flow (t.begunAll flow (moves ++ [.advance (n + 1)]))
      (t.begunAll flow (moves.filter (Move.isFor flow) ++ [.advance (n + 1)]))
      (t.performAll (moves ++ [.advance (n + 1)]))
      (t.performAll (moves.filter (Move.isFor flow) ++ [.advance (n + 1)])) := by
    simp only [performAll_concat, begunAll_concat, begun_advance, List.append_nil]
    rcases parallel_performAll ht hmoves with h | ⟨-, h⟩
    · exact h.advance (n + 1)
    · exact h.advance_of_settle n
  exact hlast.alike.told

end Flowline.Subscriptions
