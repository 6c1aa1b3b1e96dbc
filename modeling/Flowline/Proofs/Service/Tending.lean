import Flowline.Proofs.Feed.Consumer
import Flowline.Proofs.Feed.OnTime
import Flowline.Proofs.Monitor.Registering
import Flowline.Service

/-!
# What a service looks after

Starting a service goes through the registrations that can be read, one after the other: each is
registered, and then its flow is subscribed to, in place of an earlier subscription. So the registry
is that of the registrations, the flows that are subscribed to are those that they name, and each
is looked at as its last registration wants, from the very start on. `Tends` says this of the
registrations so far; one more (`Tends.startFlow`) and the passing of time (`Tends.advance`) keep
it, though the subscriptions that were begun earlier may act in between.
-/

namespace Flowline

namespace Monitor

/-- The registry takes no notice of the board. -/
theorem registry_register_congr {m m' : Monitor} (h : m.registry = m'.registry) (r : Registration) :
    (m.register r).2.registry = (m'.register r).2.registry :=
  congrArg (fun registry : Registry => (registry.register r).2) h

end Monitor

/-! ## The last registration of a flow -/

/-- Of the registrations of its flow it is the last one. -/
def Registration.IsLatest (rs : List Registration) (r : Registration) : Prop :=
  ∃ before after, rs = before ++ r :: after ∧ ∀ r' ∈ after, r'.flowName ≠ r.flowName

theorem Registration.isLatest_concat {rs : List Registration} {r r' : Registration} :
    IsLatest (rs ++ [r]) r' ↔ r' = r ∨ r.flowName ≠ r'.flowName ∧ IsLatest rs r' := by
  constructor
  · rintro ⟨before, after, hsplit, hafter⟩
    rcases concat_eq_append_cons hsplit with ⟨-, rfl, -⟩ | ⟨rest, rfl, hrs⟩
    · exact .inl rfl
    · refine .inr ⟨hafter r (by simp), before, rest, hrs, ?_⟩
      exact fun q hq => hafter q (List.mem_append_left _ hq)
  · rintro (rfl | ⟨hne, before, after, rfl, hafter⟩)
    · exact ⟨rs, [], rfl, nofun⟩
    · refine ⟨before, after ++ [r], by simp, ?_⟩
      intro q hq
      rcases List.mem_append.1 hq with hq | hq
      · exact hafter q hq
      · rw [List.mem_singleton.1 hq]
        exact hne

theorem Registration.exists_isLatest {rs : List Registration} {name : String}
    (h : ∃ r ∈ rs, r.flowName = name) : ∃ r, IsLatest rs r ∧ r.flowName = name := by
  induction rs using List.reverseRecOn with
  | nil =>
    obtain ⟨r, hr, -⟩ := h
    cases hr
  | append_singleton rs r ih =>
    by_cases hname : r.flowName = name
    · exact ⟨r, isLatest_concat.2 (.inl rfl), hname⟩
    · obtain ⟨q, hq, rfl⟩ := h
      have hmem : q ∈ rs := by
        rcases List.mem_append.1 hq with hq | hq
        · exact hq
        · exact absurd (congrArg _ (List.mem_singleton.1 hq).symm) hname
      obtain ⟨r', hr', hsame⟩ := ih ⟨q, hmem, rfl⟩
      exact ⟨r', isLatest_concat.2 (.inr ⟨hsame ▸ hname, hr'⟩), hsame⟩

namespace Service

variable {σ : Type} {d : Deployment} {source : Source σ} {s : Service σ} {rs : List Registration}

/-! ## Starting one flow -/

theorem tidy_setMonitor (h : s.subscriptions.Tidy) (m : Monitor) :
    (s.setMonitor m).subscriptions.Tidy :=
  h.congr ⟨h.numbered.subscriptions, h.numbered.told⟩
    ⟨fun s hs => ⟨s, hs, rfl⟩, fun s hs _ => ⟨s, hs, rfl, rfl, rfl⟩, id⟩ rfl

theorem tidy_startFlow (h : s.subscriptions.Tidy) (r : Registration) :
    (s.startFlow r).subscriptions.Tidy :=
  (tidy_setMonitor h _).subscribe r.flowName _

theorem subscriptions_startFlow (s : Service σ) (r : Registration) :
    (s.startFlow r).subscriptions =
      ((s.setMonitor (s.monitor.register r).2).subscriptions.perform
        (.subscribe r.flowName (s.period r))).2 := rfl

/-! ## Tending flows -/

/-- The service has started the flows of the registrations, and has not been stopped. -/
structure Tends (d : Deployment) (source : Source σ) (rs : List Registration) (s : Service σ) :
    Prop where
  deployment : s.deployment = d
  sameSource : s.subscriptions.feed.source = source
  tidy : s.subscriptions.Tidy
  registry : s.monitor.registry = (Monitor.empty.registerAll rs).registry
  listed : ∀ name, s.subscriptions.contains name = true ↔ ∃ r ∈ rs, r.flowName = name
  /-- The last registration of a flow says how often it is looked at. -/
  polls : ∀ r, Registration.IsLatest rs r → s.period r ≠ 0 →
    ∃ id, s.subscriptions.Polls r.flowName id (s.period r)
  onTime : source.IsPrompt → ∀ r, Registration.IsLatest rs r → s.period r ≠ 0 →
    s.subscriptions.IsOnTime r.flowName (s.period r)

theorem Tends.isNamed (h : Tends d source rs s) : s.monitor.IsNamed :=
  Monitor.isNamed_congr h.registry (Monitor.isNamed_registerAll _ Monitor.isNamed_empty rs)

theorem tends_ofDeployment (d : Deployment) (source : Source σ) (memory : σ) :
    Tends d source [] (ofDeployment d source memory) where
  deployment := rfl
  sameSource := rfl
  tidy := Subscriptions.IsNew.tidy ⟨rfl, rfl, rfl, Monitor.isNamed_empty⟩
  registry := rfl
  listed := by
    intro name
    constructor
    · exact nofun
    · rintro ⟨r, hr, -⟩
      cases hr
  polls := by
    rintro r ⟨before, after, hsplit, -⟩
    simp at hsplit
  onTime := by
    rintro - r ⟨before, after, hsplit, -⟩
    simp at hsplit

theorem now_startFlow (s : Service σ) (r : Registration) :
    (s.startFlow r).subscriptions.feed.now = s.subscriptions.feed.now :=
  (s.setMonitor (s.monitor.register r).2).subscriptions.now_unsubscribe r.flowName

theorem period_startFlow (s : Service σ) (r r' : Registration) :
    (s.startFlow r).period r' = s.period r' := by
  have hsource := (s.setMonitor (s.monitor.register r).2).subscriptions.source_subscribe
    r.flowName (s.period r)
  exact congrArg (fun source : Source σ => source.period _) hsource

theorem Tends.startFlow (h : Tends d source rs s) (hnow : s.subscriptions.feed.now = 0)
    (r : Registration) : Tends d source (rs ++ [r]) (s.startFlow r) := by
  -- The flow is registered in `t`. Subscribing to it may make others act, which keeps the registry.
  let t := (s.setMonitor (s.monitor.register r).2).subscriptions
  have ht : t.Tidy := tidy_setMonitor h.tidy _
  have hends : ∀ r' : Registration, r.flowName ≠ r'.flowName →
      (Subscriptions.Move.subscribe r.flowName (s.period r)).ends r'.flowName = false := by
    intro r' hne
    simpa [Subscriptions.Move.ends] using hne
  constructor
  · exact h.deployment
  · exact (t.source_subscribe r.flowName (s.period r)).trans h.sameSource
  · exact tidy_startFlow h.tidy r
  · have happend : Monitor.empty.registerAll (rs ++ [r]) =
        ((Monitor.empty.registerAll rs).register r).2 := List.foldl_append
    rw [happend]
    exact (t.registry_subscribe r.flowName (s.period r)).trans
      (Monitor.registry_register_congr h.registry r)
  · intro name
    have hcontains := Subscriptions.contains_perform t name (.subscribe r.flowName (s.period r))
    have hbefore : t.contains name = true ↔ ∃ r ∈ rs, r.flowName = name := h.listed name
    rw [subscriptions_startFlow, hcontains, hbefore]
    by_cases hr : r.flowName = name
    · simp [hr]
    · simp [hr, Subscriptions.Move.ends]
  · intro r' hlatest hperiod
    rw [period_startFlow] at hperiod ⊢
    rcases Registration.isLatest_concat.1 hlatest with rfl | ⟨hne, hlatest⟩
    · exact ⟨_, Subscriptions.polls_subscribe t r'.flowName (s.period r')⟩
    · -- another flow is subscribed to
      obtain ⟨id, hpolls⟩ := h.polls r' hlatest hperiod
      have hsame : t.Polls r'.flowName id (s.period r') := ⟨hpolls.listed, hpolls.acts⟩
      exact ⟨id, hsame.perform ht hperiod (hends r' hne)⟩
  · intro hprompt r' hlatest hperiod
    rw [period_startFlow] at hperiod ⊢
    rcases Registration.isLatest_concat.1 hlatest with rfl | ⟨hne, hlatest⟩
    · exact Subscriptions.isOnTime_subscribe ht (h.sameSource ▸ hprompt)
        (Monitor.isNamed_register _ h.isNamed r') hnow r'.flowName (s.period r')
    · have hpositive := Nat.pos_of_ne_zero hperiod
      have hsame : t.IsOnTime r'.flowName (s.period r') :=
        (h.onTime hprompt r' hlatest hperiod).call hpositive (.register r)
      exact hsame.perform ht hpositive (hends r' hne)

theorem Tends.startAll (h : Tends d source rs s) (hnow : s.subscriptions.feed.now = 0)
    (more : List Registration) :
    Tends d source (rs ++ more) (more.foldl Service.startFlow s) := by
  induction more generalizing rs s with
  | nil => rwa [List.append_nil]
  | cons r more ih =>
    have hnext := ih (h.startFlow hnow r) ((now_startFlow s r).trans hnow)
    rwa [List.append_assoc, List.singleton_append] at hnext

theorem Tends.advance (h : Tends d source rs s) (n : Nat) : Tends d source rs (s.advance n) := by
  have hframe := Feed.sameFrame_advance n s.subscriptions.feed
  have hperiod : ∀ r, (s.advance n).period r = s.period r := fun r =>
    congrArg (fun source : Source σ => source.period _) hframe.source
  constructor
  · exact h.deployment
  · exact hframe.source.trans h.sameSource
  · exact h.tidy.advance n
  · exact hframe.registry.trans h.registry
  · exact h.listed
  · intro r hlatest hne
    rw [hperiod] at hne ⊢
    obtain ⟨id, hpolls⟩ := h.polls r hlatest hne
    exact ⟨id, hpolls.perform h.tidy hne (a := .advance n) rfl⟩
  · intro hprompt r hlatest hne
    rw [hperiod] at hne ⊢
    exact (h.onTime hprompt r hlatest hne).perform h.tidy (Nat.pos_of_ne_zero hne)
      (a := .advance n) rfl

end Service

end Flowline
