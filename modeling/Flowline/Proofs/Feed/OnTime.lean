import Flowline.Proofs.Feed.Pace
import Flowline.Proofs.Feed.Subscriptions

/-!
# Subscriptions that are on time

If the source answers at once, the subscription to a flow that was begun at the very start ticks at
the multiples of its period (`IsOnTime.next`), whatever the consumer does about other flows
(`IsOnTime.perform`) and whatever others call the monitor for (`IsOnTime.call`).
-/

namespace Flowline.Subscriptions

variable {σ : Type} {t : Subscriptions σ} {flow : String} {period : Nat}

/-- The subscription to a flow has been on schedule since the first instant. -/
def IsOnTime (t : Subscriptions σ) (flow : String) (period : Nat) : Prop :=
  ∃ id ts k, t.ids.get? flow = some id ∧ Feed.OnSchedule id flow period 0 ts k t.feed

theorem isOnTime_subscribe (ht : t.Tidy) (hprompt : t.feed.source.IsPrompt)
    (hnamed : t.feed.monitor.IsNamed) (hnow : t.feed.now = 0) (flow : String) (period : Nat) :
    (t.subscribe flow period).2.IsOnTime flow period := by
  have hframe := t.sameFrame_unsubscribe flow
  have hschedule := Feed.onSchedule_subscribe (hframe.source ▸ hprompt)
    (Monitor.isNamed_congr hframe.registry hnamed) (ht.unsubscribe flow).numbered flow period
  rw [now_unsubscribe, hnow] at hschedule
  exact ⟨_, [], 0, (ids_subscribe t flow flow period).trans (if_pos rfl), hschedule⟩

/-- A move that does not end the subscription to a flow does not do so under its id either. -/
theorem Tidy.ends_eq_false (ht : t.Tidy) {id : Nat} (hid : t.ids.get? flow = some id) {a : Move}
    (ha : a.ends flow = false) : ∀ m ∈ t.feedMoves a, m.ends id = false := by
  have hother : ∀ name, name ≠ flow → (t.idsOf name).contains id = false := by
    intro name hne
    rw [← Bool.not_eq_true, List.contains_iff_mem, mem_idsOf]
    exact fun hget => hne (ht.distinct name flow id hget hid)
  cases a with
  | subscribe name period =>
    have hname : name ≠ flow := by simpa [Move.ends] using ha
    simp only [feedMoves, List.forall_mem_cons]
    exact ⟨hother name hname, rfl, List.forall_mem_nil _⟩
  | unsubscribe name =>
    have hname : name ≠ flow := by simpa [Move.ends] using ha
    simp only [feedMoves, List.forall_mem_cons]
    exact ⟨hother name hname, List.forall_mem_nil _⟩
  | unsubscribeAll => cases ha
  | advance n =>
    simp only [feedMoves, List.forall_mem_cons]
    exact ⟨rfl, List.forall_mem_nil _⟩

theorem IsOnTime.perform (h : t.IsOnTime flow period) (ht : t.Tidy) (hperiod : 1 ≤ period)
    {a : Move} (ha : a.ends flow = false) : (t.perform a).2.IsOnTime flow period := by
  obtain ⟨id, ts, k, hid, hschedule⟩ := h
  obtain ⟨k', hlater⟩ := hschedule.performAll hperiod (ht.ends_eq_false hid ha)
  rw [← feed_perform] at hlater
  exact ⟨id, _, k', (ids_perform_of_ends_eq_false ha).trans hid, hlater⟩

theorem IsOnTime.call (h : t.IsOnTime flow period) (hperiod : 1 ≤ period) (c : Monitor.Call) :
    IsOnTime ⟨t.feed.perform (.call c), t.ids⟩ flow period := by
  obtain ⟨id, ts, k, hid, hschedule⟩ := h
  obtain ⟨k', hlater⟩ := hschedule.perform hperiod (a := .call c) rfl
  exact ⟨id, _, k', hid, hlater⟩

/-- The next tick is the next multiple of the period, now or later. -/
theorem IsOnTime.next (h : t.IsOnTime flow period) : ∃ s ∈ t.feed.subscriptions,
    s.flowName = flow ∧ ∃ k, s.phase = .waiting (k * period) ∧ t.feed.now ≤ k * period ∧
      k * period ≤ t.feed.now + period := by
  obtain ⟨id, ts, k, hid, hschedule⟩ := h
  have halone := hschedule.alone
  have hpast := hschedule.past
  have hearly := hschedule.early
  simp only [Nat.zero_add] at halone hpast hearly
  have hmem : ⟨id, flow, period, .waiting (k * period)⟩ ∈ t.feed.subscriptions.filter
      fun s => s.id = id := halone ▸ List.mem_singleton_self _
  refine ⟨_, (List.mem_filter.1 hmem).1, rfl, k, rfl, hearly, ?_⟩
  cases k with
  | zero => omega
  | succ j =>
    have hlast := hpast j (Nat.lt_succ_self j)
    rw [Nat.succ_mul]
    omega

end Flowline.Subscriptions
