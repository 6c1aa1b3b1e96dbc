import Flowline.Feed.Calls
import Flowline.Proofs.Feed.Runs
import Flowline.Proofs.Lists
import Flowline.Proofs.Monitor.Entries
import Flowline.Proofs.Monitor.Registering
import Flowline.Proofs.Source.Apart
import Mathlib.Data.List.Basic

/-!
# Subscriptions to different flows

Two feeds are `Alike` as to a flow if they have the same of it: its snapshot, its map, its part of
the memory of the source, the timers of its subscriptions and what their listeners have been told.
Turns of subscriptions to other flows make no difference to that (`alike_takeTurn_of_ne`), and turns
of its own subscriptions go on from that alone (`Alike.takeTurn`). So the two feeds stay alike
whenever things happen that are due (`Alike.settle`), and while time passes (`Alike.advance`).
-/

namespace Flowline

/-- A fetch that is going on will yield news of this flow, if any. -/
def Phase.IsAbout (flow : String) (phase : Phase) : Prop :=
  ∀ next finish event, phase = .fetching next finish (.ok event) → event.flowName = flow

theorem Phase.isAbout_waiting (flow : String) (tick : Nat) : (waiting tick).IsAbout flow := nofun

namespace Feed

open Subscriptions (toldTo)

variable {σ π : Type} {part : String → σ → π} {flow : String} {ids ids' : List Nat} {f g h : Feed σ}
  {s s' : Subscription} {result : Except FeedError Event}

/-! ## What a feed has of a flow -/

/-- The place of a subscription among others, and its timer. -/
def timer (ids : List Nat) (s : Subscription) : Option Nat × Nat × Phase :=
  (ids.idxOf? s.id, s.period, s.phase)

/-- The timers of the subscriptions to a flow. -/
def timersOf (flow : String) (ids : List Nat) (ss : List Subscription) :
    List (Option Nat × Nat × Phase) :=
  (ss.filter fun s => s.flowName = flow).map (timer ids)

/-- Two feeds have the same of a flow, whose subscriptions have the ids `ids` in one and `ids'` in
the other. -/
structure Alike (part : String → σ → π) (flow : String) (ids ids' : List Nat) (f g : Feed σ) :
    Prop where
  now : f.now = g.now
  source : f.source = g.source
  snapshot : f.monitor.snapshot? flow = g.monitor.snapshot? flow
  map : f.monitor.board.mapOf flow = g.monitor.board.mapOf flow
  memory : part flow f.memory = part flow g.memory
  timers : timersOf flow ids f.subscriptions = timersOf flow ids' g.subscriptions
  told : toldTo ids f.told = toldTo ids' g.told

theorem Alike.refl (f : Feed σ) : Alike part flow ids ids f f :=
  ⟨rfl, rfl, rfl, rfl, rfl, rfl, rfl⟩

theorem Alike.symm (h : Alike part flow ids ids' f g) : Alike part flow ids' ids g f :=
  ⟨h.now.symm, h.source.symm, h.snapshot.symm, h.map.symm, h.memory.symm, h.timers.symm,
    h.told.symm⟩

theorem Alike.trans {ids'' : List Nat} (hfg : Alike part flow ids ids' f g)
    (hgh : Alike part flow ids' ids'' g h) : Alike part flow ids ids'' f h :=
  ⟨hfg.now.trans hgh.now, hfg.source.trans hgh.source, hfg.snapshot.trans hgh.snapshot,
    hfg.map.trans hgh.map, hfg.memory.trans hgh.memory, hfg.timers.trans hgh.timers,
    hfg.told.trans hgh.told⟩

/-- A subscription of a feed whose subscriptions to a flow have the ids `ids`. -/
structure Belongs (flow : String) (ids : List Nat) (s : Subscription) : Prop where
  about : s.phase.IsAbout s.flowName
  other : s.flowName ≠ flow → s.id ∉ ids

/-- A feed in which flows are kept apart. -/
structure Ordered (part : String → σ → π) (flow : String) (ids : List Nat) (f : Feed σ) : Prop where
  source : f.source.KeepsApart part
  named : f.monitor.IsNamed
  belong : ∀ s ∈ f.subscriptions, Belongs flow ids s

theorem Ordered.serves (hf : Ordered part flow ids f) {id : Nat} (hfg : Serves id f g) :
    Ordered part flow ids g where
  source := hfg.source ▸ hf.source
  named := Monitor.isNamed_congr hfg.registry hf.named
  belong := hfg.subscriptions ▸ hf.belong

theorem toldTo_concat (ids : List Nat) (told : List (Nat × Update)) (id : Nat) (u : Update) :
    toldTo ids (told ++ [(id, u)]) =
      toldTo ids told ++ ((ids.idxOf? id).map fun i => (i, u)).toList := by
  rw [toldTo, List.filterMap_append]
  cases h : ids.idxOf? id with
  | none => simp [toldTo, h]
  | some i => simp [toldTo, h]

/-- The fetch of a tick is about the flow of the subscription. -/
theorem isAbout_tick (hf : Ordered part flow ids f) (s : Subscription) (tick : Nat) :
    (f.tick s tick).2.IsAbout s.flowName := by
  cases hs : f.monitor.snapshot? s.flowName with
  | none =>
    rw [tick_of_none hs]
    exact Phase.isAbout_waiting _ _
  | some snapshot =>
    by_cases hdelay : (f.source.fetch f.memory snapshot).1.delay = 0
    · rw [tick_of_delay_eq hs hdelay]
      exact Phase.isAbout_waiting _ _
    · rw [tick_of_delay_ne hs hdelay]
      intro next finish event hphase
      have hresult := (Phase.fetching.inj hphase).2.2
      exact (hf.source.named _ _ _ hresult).trans (hf.named _ _ hs)

theorem isAbout_ticks (hf : Ordered part flow ids f) (s : Subscription) (n : Nat) {phase : Phase}
    (hphase : phase.IsAbout s.flowName) : (ticks s n f phase).2.IsAbout s.flowName := by
  induction n generalizing f phase with
  | zero => exact hphase
  | succ n ih =>
    cases phase with
    | fetching next finish result => exact hphase
    | waiting tick =>
      by_cases hle : tick ≤ f.now
      · rw [ticks_of_le hle]
        exact ih (hf.serves (serves_tick f s tick)) (isAbout_tick hf s tick)
      · rw [ticks, if_neg hle]
        exact Phase.isAbout_waiting _ _

theorem isAbout_act (hf : Ordered part flow ids f) (hs : s.phase.IsAbout s.flowName) :
    (f.act s).2.IsAbout s.flowName := by
  unfold act
  split
  · exact isAbout_ticks hf s _ hs
  · split
    · exact isAbout_ticks (hf.serves (serves_deliver f s.id _)) s _ (Phase.isAbout_waiting _ _)
    · exact hs

theorem Ordered.takeTurn (hf : Ordered part flow ids f) (hs : Belongs flow ids s) :
    Ordered part flow ids (f.takeTurn s) where
  source := (hf.serves (serves_act f s)).source
  named := (hf.serves (serves_act f s)).named
  belong := by
    intro r hr
    rw [subscriptions_takeTurn, List.mem_append, List.mem_singleton] at hr
    rcases hr with hr | rfl
    · exact hf.belong r hr
    · exact ⟨isAbout_act hf hs.about, hs.other⟩

/-! ## Turns of subscriptions to other flows -/

section Others

theorem alike_tell_of_not_mem {id : Nat} (hid : id ∉ ids) (u : Update) :
    Alike part flow ids ids f (f.tell id u) where
  now := rfl
  source := rfl
  snapshot := rfl
  map := rfl
  memory := rfl
  timers := rfl
  told := by
    have hnone : ids.idxOf? id = none := List.idxOf?_eq_none_iff.2 hid
    rw [tell, toldTo_concat, hnone]
    simp

theorem alike_deliver_of_ne {id : Nat} (hid : id ∉ ids)
    (hresult : ∀ event, result = .ok event → event.flowName ≠ flow) :
    Alike part flow ids ids f (f.deliver id result) := by
  cases result with
  | error e => exact alike_tell_of_not_mem hid _
  | ok event =>
    cases hc : f.monitor.contains event.flowName with
    | false =>
      rw [deliver_of_not_contains hc]
      exact alike_tell_of_not_mem hid _
    | true =>
      rw [deliver_of_contains hc]
      have hmap : f.monitor.board.mapOf flow = (f.monitor.board.apply event).mapOf flow := by
        have hget := Board.get?_apply f.monitor.board flow event
        rw [if_neg (hresult event rfl)] at hget
        exact congrArg (Option.getD · NameMap.empty) hget.symm
      have hmerged : Alike part flow ids ids f (f.merged event) :=
        ⟨rfl, rfl, rfl, hmap, rfl, rfl, rfl⟩
      exact hmerged.trans (alike_tell_of_not_mem hid _)

theorem alike_tick_of_ne (hf : Ordered part flow ids f) (hs : s.flowName ≠ flow)
    (hid : s.id ∉ ids) (tick : Nat) : Alike part flow ids ids f (f.tick s tick).1 := by
  cases hsnapshot : f.monitor.snapshot? s.flowName with
  | none =>
    rw [tick_of_none hsnapshot]
    exact alike_tell_of_not_mem hid _
  | some snapshot =>
    have hname := hf.named _ _ hsnapshot
    have hasked : Alike part flow ids ids f (f.asked snapshot) :=
      ⟨rfl, rfl, rfl, rfl, (hf.source.others _ _ _ (hname ▸ hs)).symm, rfl, rfl⟩
    by_cases hdelay : (f.source.fetch f.memory snapshot).1.delay = 0
    · rw [tick_of_delay_eq hsnapshot hdelay]
      apply hasked.trans (alike_deliver_of_ne hid _)
      intro event hresult
      rw [hf.source.named _ _ _ hresult, hname]
      exact hs
    · rw [tick_of_delay_ne hsnapshot hdelay]
      exact hasked

theorem alike_ticks_of_ne (hf : Ordered part flow ids f) (hs : s.flowName ≠ flow)
    (hid : s.id ∉ ids) (n : Nat) (phase : Phase) :
    Alike part flow ids ids f (ticks s n f phase).1 := by
  induction n generalizing f phase with
  | zero => exact Alike.refl f
  | succ n ih =>
    cases phase with
    | fetching next finish result => exact Alike.refl f
    | waiting tick =>
      by_cases hle : tick ≤ f.now
      · rw [ticks_of_le hle]
        exact (alike_tick_of_ne hf hs hid tick).trans (ih (hf.serves (serves_tick f s tick)) _)
      · rw [ticks, if_neg hle]
        exact Alike.refl f

theorem alike_act_of_ne (hf : Ordered part flow ids f) (hs : s.flowName ≠ flow)
    (hbelongs : Belongs flow ids s) : Alike part flow ids ids f (f.act s).1 := by
  have hid := hbelongs.other hs
  unfold act
  split
  · exact alike_ticks_of_ne hf hs hid _ _
  · next next finish result hphase =>
    split
    · have hresult : ∀ event, result = .ok event → event.flowName ≠ flow := by
        rintro event rfl
        rw [hbelongs.about _ _ _ hphase]
        exact hs
      exact (alike_deliver_of_ne hid hresult).trans
        (alike_ticks_of_ne (hf.serves (serves_deliver f s.id result)) hs hid _ _)
    · exact Alike.refl f

theorem timersOf_append (ss rest : List Subscription) :
    timersOf flow ids (ss ++ rest) = timersOf flow ids ss ++ timersOf flow ids rest := by
  rw [timersOf, List.filter_append, List.map_append]
  rfl

theorem timersOf_cons_of_ne (hs : s.flowName ≠ flow) (ss : List Subscription) :
    timersOf flow ids (s :: ss) = timersOf flow ids ss := by
  simp [timersOf, hs]

theorem timersOf_cons_of_eq (hs : s.flowName = flow) (ss : List Subscription) :
    timersOf flow ids (s :: ss) = timer ids s :: timersOf flow ids ss := by
  simp [timersOf, hs]

/-- A turn of a subscription to another flow makes no difference. -/
theorem alike_takeTurn_of_ne (hf : Ordered part flow ids f) (hs : s.flowName ≠ flow)
    (hbelongs : Belongs flow ids s) : Alike part flow ids ids f (f.takeTurn s) := by
  have hact := alike_act_of_ne hf hs hbelongs
  refine ⟨hact.now, hact.source, hact.snapshot, hact.map, hact.memory, ?_, hact.told⟩
  have hnone : timersOf flow ids [{ s with phase := (f.act s).2 }] = [] := by
    rw [timersOf_cons_of_ne (by exact hs)]
    rfl
  rw [subscriptions_takeTurn, timersOf_append, hnone, List.append_nil]

end Others

/-! ## Turns of its own subscriptions -/

section Own

theorem Alike.tell (h : Alike part flow ids ids' f g) {id id' : Nat}
    (hid : ids.idxOf? id = ids'.idxOf? id') (u : Update) :
    Alike part flow ids ids' (f.tell id u) (g.tell id' u) where
  now := h.now
  source := h.source
  snapshot := h.snapshot
  map := h.map
  memory := h.memory
  timers := h.timers
  told := by
    rw [Feed.tell, Feed.tell, toldTo_concat, toldTo_concat, h.told, hid]

theorem Alike.deliver (h : Alike part flow ids ids' f g) {id id' : Nat}
    (hid : ids.idxOf? id = ids'.idxOf? id')
    (hresult : ∀ event, result = .ok event → event.flowName = flow) :
    Alike part flow ids ids' (f.deliver id result) (g.deliver id' result) := by
  cases result with
  | error e => exact h.tell hid _
  | ok event =>
    obtain rfl := hresult event rfl
    have hcontains : f.monitor.contains event.flowName = g.monitor.contains event.flowName :=
      congrArg Option.isSome h.snapshot
    cases hc : f.monitor.contains event.flowName with
    | false =>
      rw [deliver_of_not_contains hc, deliver_of_not_contains (hcontains ▸ hc)]
      exact h.tell hid _
    | true =>
      have hmap : f.monitor.board.mapAfter event = g.monitor.board.mapAfter event :=
        congrArg (StatusMap.merge · event.stages) h.map
      have hget : (f.monitor.board.apply event).get? event.flowName =
          (g.monitor.board.apply event).get? event.flowName := by
        rw [Board.get?_apply, Board.get?_apply, if_pos rfl, if_pos rfl, h.map]
      have hmerged : Alike part event.flowName ids ids' (f.merged event) (g.merged event) :=
        ⟨h.now, h.source, h.snapshot, congrArg (Option.getD · NameMap.empty) hget, h.memory,
          h.timers, h.told⟩
      rw [deliver_of_contains hc, deliver_of_contains (hcontains ▸ hc), hmap]
      exact hmerged.tell hid _

/-- Subscriptions to the flow that stand at the same place and have the same timer. -/
structure Matched (flow : String) (ids ids' : List Nat) (s s' : Subscription) : Prop where
  flowName : s.flowName = flow
  flowName' : s'.flowName = flow
  place : ids.idxOf? s.id = ids'.idxOf? s'.id
  period : s.period = s'.period

theorem Alike.tick (h : Alike part flow ids ids' f g) (hf : Ordered part flow ids f)
    (hs : Matched flow ids ids' s s') (tick : Nat) :
    Alike part flow ids ids' (f.tick s tick).1 (g.tick s' tick).1 ∧
      (f.tick s tick).2 = (g.tick s' tick).2 := by
  have hnext : tickAfter s.period tick f.now = tickAfter s'.period tick g.now := by
    rw [hs.period, h.now]
  have hsnapshot : f.monitor.snapshot? s.flowName = g.monitor.snapshot? s'.flowName := by
    rw [hs.flowName, hs.flowName', h.snapshot]
  cases hg : g.monitor.snapshot? s'.flowName with
  | none =>
    rw [tick_of_none hg, tick_of_none (hsnapshot.trans hg), hnext, hs.flowName, hs.flowName']
    exact ⟨h.tell hs.place _, rfl⟩
  | some snapshot =>
    have hf' := hsnapshot.trans hg
    have hname : snapshot.name = flow := (hf.named _ _ hf').trans hs.flowName
    obtain ⟨hfetch, hmemory⟩ := hf.source.fetch f.memory g.memory snapshot (hname.symm ▸ h.memory)
    have hasked : Alike part flow ids ids' (f.asked snapshot) (g.asked snapshot) := by
      refine ⟨h.now, h.source, h.snapshot, h.map, ?_, h.timers, h.told⟩
      rw [hname, h.source] at hmemory
      rw [asked, asked, h.source]
      exact hmemory
    have hresult : ∀ event, (f.source.fetch f.memory snapshot).1.result = .ok event →
        event.flowName = flow :=
      fun event hevent => (hf.source.named _ _ _ hevent).trans hname
    rw [h.source] at hfetch hresult
    by_cases hdelay : (g.source.fetch g.memory snapshot).1.delay = 0
    · have hdelay' : (f.source.fetch f.memory snapshot).1.delay = 0 := by rwa [h.source, hfetch]
      rw [tick_of_delay_eq hg hdelay, tick_of_delay_eq hf' hdelay', hnext, h.source, hfetch]
      exact ⟨hasked.deliver hs.place (hfetch ▸ hresult), rfl⟩
    · have hdelay' : (f.source.fetch f.memory snapshot).1.delay ≠ 0 := by rwa [h.source, hfetch]
      rw [tick_of_delay_ne hg hdelay, tick_of_delay_ne hf' hdelay', hnext, h.source, hfetch, h.now]
      exact ⟨hasked, rfl⟩

theorem Alike.ticks (h : Alike part flow ids ids' f g) (hf : Ordered part flow ids f)
    (hs : Matched flow ids ids' s s') (n : Nat) (phase : Phase) :
    Alike part flow ids ids' (ticks s n f phase).1 (ticks s' n g phase).1 ∧
      (Feed.ticks s n f phase).2 = (Feed.ticks s' n g phase).2 := by
  induction n generalizing f g phase with
  | zero => exact ⟨h, rfl⟩
  | succ n ih =>
    cases phase with
    | fetching next finish result => exact ⟨h, rfl⟩
    | waiting tick =>
      by_cases hle : tick ≤ f.now
      · obtain ⟨hafter, hphase⟩ := h.tick hf hs tick
        rw [ticks_of_le hle, ticks_of_le (h.now ▸ hle), ← hphase]
        exact ih hafter (hf.serves (serves_tick f s tick)) _
      · rw [Feed.ticks, if_neg hle, Feed.ticks, if_neg (h.now ▸ hle)]
        exact ⟨h, rfl⟩

theorem Alike.act (h : Alike part flow ids ids' f g) (hf : Ordered part flow ids f)
    (hs : Matched flow ids ids' s s') (hphase : s.phase = s'.phase)
    (habout : s.phase.IsAbout s.flowName) :
    Alike part flow ids ids' (f.act s).1 (g.act s').1 ∧ (f.act s).2 = (g.act s').2 := by
  unfold Feed.act
  rw [← hphase, h.now]
  cases hwhich : s.phase with
  | waiting tick => exact h.ticks hf hs _ _
  | fetching next finish result =>
    have hresult : ∀ event, result = .ok event → event.flowName = flow := by
      rintro event rfl
      rw [habout _ _ _ hwhich]
      exact hs.flowName
    dsimp only
    split
    · exact (h.deliver hs.place hresult).ticks (hf.serves (serves_deliver f s.id result)) hs _ _
    · exact ⟨h, rfl⟩

/-- A turn of a subscription to the flow goes on from what the feed has of it. -/
theorem Alike.takeTurn (h : Alike part flow ids ids' f g) (hf : Ordered part flow ids f)
    (hs : Matched flow ids ids' s s') (hphase : s.phase = s'.phase)
    (habout : s.phase.IsAbout s.flowName) :
    Alike part flow ids ids' (f.takeTurn s) (g.takeTurn s') := by
  obtain ⟨hact, hnext⟩ := h.act hf hs hphase habout
  refine ⟨hact.now, hact.source, hact.snapshot, hact.map, hact.memory, ?_, hact.told⟩
  rw [subscriptions_takeTurn, subscriptions_takeTurn, timersOf_append, timersOf_append, h.timers,
    timersOf_cons_of_eq (by exact hs.flowName), timersOf_cons_of_eq (by exact hs.flowName')]
  simp only [timer, hs.place, hs.period, hnext]
  rfl

theorem matched_of_timer_eq (hs : s.flowName = flow) (hs' : s'.flowName = flow)
    (htimer : timer ids s = timer ids' s') :
    Matched flow ids ids' s s' ∧ s.phase = s'.phase := by
  obtain ⟨hplace, hrest⟩ := Prod.mk.inj htimer
  obtain ⟨hperiod, hphase⟩ := Prod.mk.inj hrest
  exact ⟨⟨hs, hs', hplace, hperiod⟩, hphase⟩

end Own

/-! ## Many turns -/

section All

variable {ss ss' : List Subscription}

theorem Ordered.actAll (hf : Ordered part flow ids f) (hss : ∀ s ∈ ss, Belongs flow ids s) :
    Ordered part flow ids (f.actAll ss) := by
  induction ss generalizing f with
  | nil => exact hf
  | cons s ss ih =>
    have hrest := fun r hr => hss r (List.mem_cons_of_mem _ hr)
    rw [actAll_cons]
    split
    · exact ih hf hrest
    · exact ih (hf.takeTurn (hss s List.mem_cons_self)) hrest

theorem alike_actAll_of_ne (hf : Ordered part flow ids f) (hss : ∀ s ∈ ss, Belongs flow ids s)
    (hne : ∀ s ∈ ss, s.flowName ≠ flow) : Alike part flow ids ids f (f.actAll ss) := by
  induction ss generalizing f with
  | nil => exact Alike.refl f
  | cons s ss ih =>
    have hrest := fun r hr => hss r (List.mem_cons_of_mem _ hr)
    have hne' := fun r hr => hne r (List.mem_cons_of_mem _ hr)
    have hs := hss s List.mem_cons_self
    rw [actAll_cons]
    split
    · exact ih hf hrest hne'
    · exact (alike_takeTurn_of_ne hf (hne s List.mem_cons_self) hs).trans
        (ih (hf.takeTurn hs) hrest hne')

/-- The turns that count are those of the subscriptions to the flow. -/
theorem Alike.actAll (h : Alike part flow ids ids' f g) (hf : Ordered part flow ids f)
    (hg : Ordered part flow ids' g) (hss : ∀ s ∈ ss, Belongs flow ids s)
    (hss' : ∀ s ∈ ss', Belongs flow ids' s)
    (htimers : timersOf flow ids ss = timersOf flow ids' ss') :
    Alike part flow ids ids' (f.actAll ss) (g.actAll ss') := by
  induction ss generalizing f g ss' with
  | nil =>
    have hne : ∀ s ∈ ss', s.flowName ≠ flow := by
      have hnone : ss'.filter (fun s => s.flowName = flow) = [] :=
        List.map_eq_nil_iff.1 htimers.symm
      simpa only [List.filter_eq_nil_iff, decide_eq_true_eq] using hnone
    exact h.trans (alike_actAll_of_ne hg hss' hne)
  | cons s ss ih =>
    have hs := hss s List.mem_cons_self
    have hrest := fun r hr => hss r (List.mem_cons_of_mem _ hr)
    by_cases hflow : s.flowName = flow
    · -- Its counterpart comes after subscriptions to other flows.
      rw [timersOf_cons_of_eq hflow] at htimers
      obtain ⟨s', rest, hfilter, htimer, hlater⟩ := List.map_eq_cons_iff.1 htimers.symm
      obtain ⟨before, after, rfl, hbefore, hflow', hafter⟩ := List.filter_eq_cons_iff.1 hfilter
      simp only [decide_eq_true_eq] at hbefore hflow'
      have hbelong := fun r hr => hss' r (List.mem_append_left _ hr)
      have hbelong' := fun r hr => hss' r (List.mem_append_right _ (List.mem_cons_of_mem _ hr))
      have hs' := hss' s' (by simp)
      obtain ⟨hmatched, hphase⟩ := matched_of_timer_eq hflow hflow' htimer.symm
      have hmiddle := h.trans (alike_actAll_of_ne hg hbelong hbefore)
      have hg' := hg.actAll hbelong
      have htimers' : timersOf flow ids ss = timersOf flow ids' after := by
        rw [← hlater, ← hafter]
        rfl
      rw [actAll_append, actAll_cons, actAll_cons, hmatched.period]
      split
      · exact ih hmiddle hf hg' hrest hbelong' htimers'
      · exact ih (hmiddle.takeTurn hf hmatched hphase hs.about) (hf.takeTurn hs)
          (hg'.takeTurn hs') hrest hbelong' htimers'
    · have htimers' : timersOf flow ids ss = timersOf flow ids' ss' := by
        rw [← htimers, timersOf_cons_of_ne hflow]
      rw [actAll_cons]
      split
      · exact ih h hf hg hrest hss' htimers'
      · exact ih ((alike_takeTurn_of_ne hf hflow hs).symm.trans h) (hf.takeTurn hs) hg hrest hss'
          htimers'

end All

/-! ## Settling and letting time pass -/

/-- Whether a timer goes off at an instant is told by the timer. -/
theorem timersOf_filter (p : Phase → Bool) (ss : List Subscription) :
    timersOf flow ids (ss.filter fun s => p s.phase) =
      (timersOf flow ids ss).filter fun timer => p timer.2.2 := by
  rw [timersOf, timersOf, List.filter_map, List.filter_filter, List.filter_filter]
  congr 1
  apply List.filter_congr
  intro s _
  exact Bool.and_comm _ _

theorem timersOf_due (f : Feed σ) : timersOf flow ids f.due =
    (timersOf flow ids f.subscriptions).filter fun timer => decide (timer.2.2.due ≤ f.now) :=
  timersOf_filter (fun phase => decide (phase.due ≤ f.now)) f.subscriptions

theorem timersOf_idle (f : Feed σ) : timersOf flow ids f.idle.subscriptions =
    (timersOf flow ids f.subscriptions).filter fun timer => !decide (timer.2.2.due ≤ f.now) :=
  timersOf_filter (fun phase => !decide (phase.due ≤ f.now)) f.subscriptions

theorem Alike.idle (h : Alike part flow ids ids' f g) :
    Alike part flow ids ids' f.idle g.idle := by
  refine ⟨h.now, h.source, h.snapshot, h.map, h.memory, ?_, h.told⟩
  rw [timersOf_idle, timersOf_idle, h.timers, h.now]

theorem Ordered.idle (hf : Ordered part flow ids f) : Ordered part flow ids f.idle :=
  ⟨hf.source, hf.named, fun s hs => hf.belong s (List.mem_filter.1 hs).1⟩

theorem Ordered.settle (hf : Ordered part flow ids f) : Ordered part flow ids f.settle := by
  rw [settle_eq]
  exact hf.idle.actAll fun s hs => hf.belong s (List.mem_filter.1 hs).1

theorem Alike.settle (h : Alike part flow ids ids' f g) (hf : Ordered part flow ids f)
    (hg : Ordered part flow ids' g) : Alike part flow ids ids' f.settle g.settle := by
  rw [settle_eq, settle_eq]
  apply h.idle.actAll hf.idle hg.idle
  · exact fun s hs => hf.belong s (List.mem_filter.1 hs).1
  · exact fun s hs => hg.belong s (List.mem_filter.1 hs).1
  · rw [timersOf_due, timersOf_due, h.timers, h.now]

/-- What is due makes no difference if no subscription to the flow is. -/
theorem alike_settle (hf : Ordered part flow ids f)
    (hquiet : ∀ s ∈ f.due, s.flowName ≠ flow) : Alike part flow ids ids f f.settle := by
  have hidle : Alike part flow ids ids f f.idle := by
    refine ⟨rfl, rfl, rfl, rfl, rfl, ?_, rfl⟩
    rw [idle, timersOf, timersOf, List.filter_filter]
    congr 1
    apply List.filter_congr
    intro s hs
    by_cases hflow : s.flowName = flow
    · have hdue : s.isDue f.now = false := by
        by_contra hdue
        exact hquiet s (List.mem_filter.2 ⟨hs, by simpa using hdue⟩) hflow
      simp [hflow, hdue]
    · simp [hflow]
  rw [settle_eq]
  exact hidle.trans
    (alike_actAll_of_ne hf.idle (fun s hs => hf.belong s (List.mem_filter.1 hs).1) hquiet)

theorem Ordered.nextInstant (hf : Ordered part flow ids f) :
    Ordered part flow ids f.nextInstant :=
  ⟨hf.settle.source, hf.settle.named, hf.settle.belong⟩

theorem Alike.nextInstant (h : Alike part flow ids ids' f g) (hf : Ordered part flow ids f)
    (hg : Ordered part flow ids' g) : Alike part flow ids ids' f.nextInstant g.nextInstant := by
  have hsettle := h.settle hf hg
  exact ⟨congrArg (· + 1) h.now, hsettle.source, hsettle.snapshot, hsettle.map, hsettle.memory,
    hsettle.timers, hsettle.told⟩

theorem Ordered.advance (hf : Ordered part flow ids f) (n : Nat) :
    Ordered part flow ids (f.advance n) := by
  induction n generalizing f with
  | zero => exact hf
  | succ n ih =>
    rw [advance_succ]
    exact ih hf.nextInstant

theorem Alike.advance (h : Alike part flow ids ids' f g) (hf : Ordered part flow ids f)
    (hg : Ordered part flow ids' g) (n : Nat) :
    Alike part flow ids ids' (f.advance n) (g.advance n) := by
  induction n generalizing f g with
  | zero => exact h
  | succ n ih =>
    rw [advance_succ, advance_succ]
    exact ih (h.nextInstant hf hg) hf.nextInstant hg.nextInstant

/-! ## Beginning and ending subscriptions -/

theorem Ordered.cancel (hf : Ordered part flow ids f) (ended : List Nat) :
    Ordered part flow ids (f.cancel ended) :=
  ⟨hf.source, hf.named, fun s hs => hf.belong s (List.mem_filter.1 hs).1⟩

/-- Ending subscriptions to other flows makes no difference. -/
theorem alike_cancel {ended : List Nat}
    (hended : ∀ s ∈ f.subscriptions, s.flowName = flow → s.id ∉ ended) :
    Alike part flow ids ids f (f.cancel ended) := by
  refine ⟨rfl, rfl, rfl, rfl, rfl, ?_, rfl⟩
  rw [Feed.cancel, timersOf, timersOf, List.filter_filter]
  congr 1
  apply List.filter_congr
  intro s hs
  by_cases hflow : s.flowName = flow
  · simp [hflow, hended s hs hflow]
  · simp [hflow]

/-- When all subscriptions to the flow have ended, there are no timers of it. -/
theorem Alike.cancel (h : Alike part flow ids ids' f g) {ended ended' : List Nat}
    (hended : ∀ s ∈ f.subscriptions, s.flowName = flow → s.id ∈ ended)
    (hended' : ∀ s ∈ g.subscriptions, s.flowName = flow → s.id ∈ ended') :
    Alike part flow ids ids' (f.cancel ended) (g.cancel ended') := by
  have hnone : ∀ {f : Feed σ} {ids ended : List Nat},
      (∀ s ∈ f.subscriptions, s.flowName = flow → s.id ∈ ended) →
      timersOf flow ids (f.cancel ended).subscriptions = [] := by
    intro f ids ended hended
    rw [timersOf, Feed.cancel, List.filter_filter, List.map_eq_nil_iff, List.filter_eq_nil_iff]
    intro s hs
    by_cases hflow : s.flowName = flow
    · simp [hended s hs hflow]
    · simp [hflow]
  refine ⟨h.now, h.source, h.snapshot, h.map, h.memory, ?_, h.told⟩
  rw [hnone hended, hnone hended']

theorem Ordered.subscribe_of_ne (hf : Ordered part flow ids f) (hid : f.nextId ∉ ids)
    (name : String) (period : Nat) : Ordered part flow ids (f.subscribe name period).2 := by
  refine ⟨hf.source, hf.named, ?_⟩
  intro s hs
  rcases List.mem_append.1 hs with hs | hs
  · exact hf.belong s hs
  · rw [List.mem_singleton.1 hs]
    exact ⟨Phase.isAbout_waiting _ _, fun _ => hid⟩

/-- Beginning a subscription to another flow makes no difference. -/
theorem alike_subscribe {name : String} (hname : name ≠ flow) (period : Nat) :
    Alike part flow ids ids f (f.subscribe name period).2 := by
  refine ⟨rfl, rfl, rfl, rfl, rfl, ?_, rfl⟩
  have hnone : timersOf flow ids [⟨f.nextId, name, period, .waiting f.now⟩] = [] := by
    rw [timersOf_cons_of_ne (by exact hname)]
    rfl
  rw [Feed.subscribe, timersOf_append, hnone, List.append_nil]

theorem Ordered.subscribe (hf : Ordered part flow ids f) (hnumbered : f.Numbered) (period : Nat) :
    Ordered part flow (ids ++ [f.nextId]) (f.subscribe flow period).2 := by
  refine ⟨hf.source, hf.named, ?_⟩
  intro s hs
  rcases List.mem_append.1 hs with hs | hs
  · refine ⟨(hf.belong s hs).about, ?_⟩
    intro hne hmem
    rcases List.mem_append.1 hmem with hmem | hmem
    · exact (hf.belong s hs).other hne hmem
    · exact absurd (List.mem_singleton.1 hmem) (Nat.ne_of_lt (hnumbered.subscriptions s hs))
  · rw [List.mem_singleton.1 hs]
    exact ⟨Phase.isAbout_waiting _ _, fun hne => absurd rfl hne⟩

theorem timersOf_subscribe (hnumbered : f.Numbered) (hid : f.nextId ∉ ids) (period : Nat) :
    timersOf flow (ids ++ [f.nextId]) (f.subscribe flow period).2.subscriptions =
      timersOf flow ids f.subscriptions ++ [(some ids.length, period, .waiting f.now)] := by
  have hearlier : timersOf flow (ids ++ [f.nextId]) f.subscriptions =
      timersOf flow ids f.subscriptions := by
    apply List.map_congr_left
    intro s hs
    have hne := Nat.ne_of_gt (hnumbered.subscriptions s (List.mem_filter.1 hs).1)
    rw [timer, timer, idxOf?_concat_of_ne hne]
  rw [Feed.subscribe, timersOf_append, hearlier, timersOf_cons_of_eq (by exact rfl), timer,
    idxOf?_concat_self hid]
  rfl

theorem toldTo_subscribe (hnumbered : f.Numbered) (ids : List Nat) :
    toldTo (ids ++ [f.nextId]) f.told = toldTo ids f.told := by
  apply List.filterMap_congr
  rintro ⟨id, u⟩ he
  have hne : f.nextId ≠ id := Nat.ne_of_gt (hnumbered.told _ he)
  simp only [idxOf?_concat_of_ne hne]

/-- A subscription to the flow begins in both feeds. -/
theorem Alike.subscribe (h : Alike part flow ids ids' f g) (hf : f.Numbered) (hg : g.Numbered)
    (hid : f.nextId ∉ ids) (hid' : g.nextId ∉ ids') (hlength : ids.length = ids'.length)
    (period : Nat) :
    Alike part flow (ids ++ [f.nextId]) (ids' ++ [g.nextId]) (f.subscribe flow period).2
      (g.subscribe flow period).2 := by
  refine ⟨h.now, h.source, h.snapshot, h.map, h.memory, ?_, ?_⟩
  · rw [timersOf_subscribe hf hid, timersOf_subscribe hg hid', h.timers, h.now, hlength]
  · exact (toldTo_subscribe hf ids).trans (h.told.trans (toldTo_subscribe hg ids').symm)

end Feed

end Flowline
