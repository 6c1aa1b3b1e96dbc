import Flowline.Proofs.Monitor.History
import Flowline.Proofs.Service.Tending
import Flowline.Proofs.Store.Keeps
import Flowline.Source.Mock
import Mathlib.Data.List.Dedup
import Mathlib.Data.List.Sort

/-!
# From the start of a service to its end

A service that has started looks after the flows of all registrations that can be read, each as
its last registration wants (`Attends`), and goes on doing so (`Tends.advance`). When it has been
stopped it does nothing more: only calls of others change the monitor (`IsIdle.performAll`).
`startsAndStops` puts it together.

The answer of the start is the number of registrations. Two files may register the same flow, so it
need not be the number of flows (`not_countsFlows`). It is if no two do (`countsFlows_iff`).
-/

namespace Flowline

open Text

theorem Source.period_ne_zero {σ : Type} {source : Source σ} (h : source.pollInterval ≠ some 0)
    (seconds : Nat) : source.period seconds ≠ 0 := by
  unfold period
  cases hinterval : source.pollInterval with
  | none =>
    rw [Option.getD_none]
    omega
  | some ms =>
    rw [hinterval] at h
    exact fun hzero => h (congrArg some hzero)

namespace Service

variable {σ : Type} {d : Deployment} {source : Source σ} {s : Service σ} {rs : List Registration}

/-! ## Moves -/

/-- What can happen to a service. -/
inductive Move where
  | start (fs : Files)
  | shutdown
  | advance (n : Nat)
  /-- Someone else calls the monitor. -/
  | call (c : Monitor.Call)

def Move.call? : Move → Option Monitor.Call
  | call c => some c
  | _ => none

def Move.isStart : Move → Bool
  | start _ => true
  | _ => false

def perform (s : Service σ) : Move → Service σ
  | .start fs => (s.start fs).2
  | .shutdown => s.shutdown
  | .advance n => s.advance n
  | .call c => s.setMonitor (s.monitor.perform c).2

def performAll (s : Service σ) (moves : List Move) : Service σ := moves.foldl perform s

/-! ## At work -/

/-- A flow has one updater, with this period. If the source answers at once, the updater looks at
the flow at the multiples of the period: its next tick is the next one of them. -/
structure Updates (s : Service σ) (flow : String) (period : Nat) (sub : Subscription) : Prop where
  only : (s.subscriptions.feed.subscriptions.filter fun sub => sub.flowName = flow) = [sub]
  pace : sub.period = period
  next : s.subscriptions.feed.source.IsPrompt → ∃ k, sub.phase = .waiting (k * period) ∧
    s.subscriptions.feed.now ≤ k * period ∧ k * period ≤ s.subscriptions.feed.now + period

/-- A flow is registered as a registration says, and updated as often as the source asks for or
else the registration. If the source asks for no pause at all, no updater gets to its first tick. -/
structure KeepsFresh (d : Deployment) (source : Source σ) (s : Service σ) (r : Registration) :
    Prop where
  registered : ∃ version, s.monitor.snapshot? r.flowName = some (.ofRegistration version r)
  updates : source.pollInterval ≠ some 0 → ∃ sub, s.Updates r.flowName
    (source.period (r.refreshSeconds d.settings.defaultRefreshInterval)) sub

/-- The service looks after the flows of the registrations. -/
structure Attends (d : Deployment) (source : Source σ) (rs : List Registration) (s : Service σ) :
    Prop where
  /-- The active flows are those that the registrations name, in order, -/
  active : ∀ name, name ∈ s.activeFlows ↔ ∃ r ∈ rs, r.flowName = name
  sorted : s.activeFlows.Pairwise (· < ·)
  /-- and so are the registered ones. -/
  registered : s.monitor.flows.map FlowSummary.name = s.activeFlows
  fresh : ∀ name ∈ s.activeFlows, ∃ r, Registration.IsLatest rs r ∧ r.flowName = name ∧
    KeepsFresh d source s r
  /-- There are no updaters of other flows. -/
  others : ∀ sub ∈ s.subscriptions.feed.subscriptions, sub.flowName ∈ s.activeFlows

section Work

/-- An updater is the only one of its flow. -/
theorem filter_flowName_eq_singleton (hs : s.subscriptions.Tidy) {sub : Subscription}
    (hsub : sub ∈ s.subscriptions.feed.subscriptions) :
    (s.subscriptions.feed.subscriptions.filter fun r => r.flowName = sub.flowName) = [sub] := by
  obtain ⟨before, after, hsplit⟩ := List.append_of_mem hsub
  have hsingle := hs.single
  rw [hsplit, List.map_append, List.map_cons, List.nodup_middle, List.nodup_cons,
    ← List.map_append] at hsingle
  have hothers : ∀ r ∈ before ++ after, r.flowName ≠ sub.flowName := fun r hr heq =>
    hsingle.1 (heq ▸ List.mem_map_of_mem hr)
  obtain ⟨hbefore, hafter⟩ := List.forall_mem_append.1 hothers
  rw [hsplit, List.filter_append, List.filter_cons_of_pos (by simp),
    List.filter_eq_nil_iff.2 (by simpa using hbefore),
    List.filter_eq_nil_iff.2 (by simpa using hafter), List.nil_append]

theorem Tends.updates (h : Tends d source rs s) {r : Registration}
    (hlatest : Registration.IsLatest rs r) (hperiod : s.period r ≠ 0) :
    ∃ sub, s.Updates r.flowName (s.period r) sub := by
  obtain ⟨id, hpolls⟩ := h.polls r hlatest hperiod
  obtain ⟨sub, hsub, -, hname, hsame⟩ := hpolls.acts
  have honly := filter_flowName_eq_singleton h.tidy hsub
  rw [hname] at honly
  refine ⟨sub, honly, hsame, ?_⟩
  intro hprompt
  obtain ⟨sub', hsub', hname', hnext⟩ := (h.onTime (h.sameSource ▸ hprompt) r hlatest hperiod).next
  have honly' := filter_flowName_eq_singleton h.tidy hsub'
  rw [hname', honly] at honly'
  exact List.singleton_inj.1 honly' ▸ hnext

theorem mem_activeFlows {name : String} :
    name ∈ s.activeFlows ↔ s.subscriptions.contains name = true :=
  (s.subscriptions.ids.isSome_get? name).symm

theorem Tends.attends (h : Tends d source rs s) : Attends d source rs s := by
  have hregistered : ∀ name, s.monitor.snapshot? name =
      (Monitor.empty.registerAll rs).snapshot? name :=
    fun name => congrArg (Registry.get? · name) h.registry
  have hnamed : s.monitor.IsNamed := h.isNamed
  have hactive : ∀ name, name ∈ s.activeFlows ↔ ∃ r ∈ rs, r.flowName = name :=
    fun name => mem_activeFlows.trans (h.listed name)
  constructor
  · exact hactive
  · exact List.pairwise_map.2 s.subscriptions.ids.sorted
  · apply List.Pairwise.eq_of_mem_iff (r := (· < ·))
    · exact List.pairwise_map.2 (Monitor.pairwise_flows hnamed)
    · exact List.pairwise_map.2 s.subscriptions.ids.sorted
    · intro name
      have hsome := Monitor.isSome_snapshot?_registerAll Monitor.empty rs name
      rw [← hregistered] at hsome
      rw [hactive, Monitor.map_name_flows hnamed, ← NameMap.isSome_get?]
      exact hsome.trans (or_iff_right nofun)
  · intro name hname
    obtain ⟨r, hlatest, rfl⟩ := Registration.exists_isLatest ((hactive name).1 hname)
    refine ⟨r, hlatest, rfl, ?_, ?_⟩
    · obtain ⟨before, after, rfl, hafter⟩ := hlatest
      rw [hregistered]
      exact Monitor.snapshot?_registerAll _ hafter
    · intro hinterval
      have hperiod : s.period r =
          source.period (r.refreshSeconds d.settings.defaultRefreshInterval) := by
        rw [period, h.sameSource, h.deployment]
      have hne := Source.period_ne_zero hinterval
        (r.refreshSeconds d.settings.defaultRefreshInterval)
      rw [← hperiod] at hne ⊢
      exact h.updates hlatest hne
  · intro sub hsub
    exact mem_activeFlows.2 (congrArg Option.isSome (h.tidy.filed sub hsub))

theorem Attends.length_activeFlows (h : Attends d source rs s) :
    s.activeFlows.length = (rs.map Registration.flowName).dedup.length := by
  apply List.Perm.length_eq
  rw [List.perm_ext_iff_of_nodup h.sorted.nodup (List.nodup_dedup _)]
  intro name
  rw [h.active, List.mem_dedup, List.mem_map]

theorem Attends.length_activeFlows_eq_iff (h : Attends d source rs s) :
    s.activeFlows.length = rs.length ↔ (rs.map Registration.flowName).Nodup := by
  have hsublist := List.dedup_sublist (rs.map Registration.flowName)
  rw [h.length_activeFlows, ← List.length_map Registration.flowName, hsublist.length_eq,
    List.dedup_eq_self]

end Work

/-! ## At rest -/

structure IsIdle (s : Service σ) : Prop where
  ids : s.subscriptions.ids = NameMap.empty
  subscriptions : s.subscriptions.feed.subscriptions = []

section Rest

theorem tidy_start (h : s.subscriptions.Tidy) (fs : Files) : (s.start fs).2.subscriptions.Tidy := by
  have hall : ∀ (rs : List Registration) (s : Service σ), s.subscriptions.Tidy →
      (rs.foldl startFlow s).subscriptions.Tidy := by
    intro rs
    induction rs with
    | nil => exact fun _ hs => hs
    | cons r rs ih => exact fun s hs => ih _ (tidy_startFlow hs r)
  unfold start
  split
  · exact h
  · exact hall _ s h

theorem tidy_perform (h : s.subscriptions.Tidy) (a : Move) : (s.perform a).subscriptions.Tidy := by
  cases a with
  | start fs => exact tidy_start h fs
  | shutdown => exact h.unsubscribeAll
  | advance n => exact h.advance n
  | call c => exact tidy_setMonitor h _

theorem tidy_performAll (h : s.subscriptions.Tidy) (moves : List Move) :
    (s.performAll moves).subscriptions.Tidy := by
  induction moves generalizing s with
  | nil => exact h
  | cons a moves ih => exact ih (tidy_perform h a)

/-- Ending everything is done at once, without any turn. -/
theorem feed_shutdown (h : s.subscriptions.Tidy) : s.shutdown.subscriptions.feed =
    { s.subscriptions.feed with subscriptions := [] } := by
  -- Every subscription is listed, so none is left that could act while the others end.
  have hcancel : s.subscriptions.feed.cancel s.subscriptions.ids.values =
      { s.subscriptions.feed with subscriptions := [] } := by
    have hnone : (s.subscriptions.feed.subscriptions.filter fun sub =>
        !s.subscriptions.ids.values.contains sub.id) = [] := by
      rw [List.filter_eq_nil_iff]
      intro sub hsub
      have hmem := Subscriptions.mem_values_of_get? (h.filed sub hsub)
      simpa using hmem
    rw [Feed.cancel, hnone]
  have hfeed : s.shutdown.subscriptions.feed =
      s.subscriptions.feed.unsubscribe s.subscriptions.ids.values := rfl
  rw [hfeed, Feed.unsubscribe]
  split
  · rw [hcancel]
    exact Feed.settle_of_quiet fun _ hsub => absurd hsub List.not_mem_nil
  · next hlive => rw [← hcancel, Feed.cancel_of_not_live (by simpa using hlive)]

theorem isIdle_shutdown (h : s.subscriptions.Tidy) : s.shutdown.IsIdle := by
  refine ⟨rfl, ?_⟩
  rw [feed_shutdown h]

theorem monitor_shutdown (h : s.subscriptions.Tidy) : s.shutdown.monitor = s.monitor := by
  rw [monitor, feed_shutdown h]
  rfl

theorem IsIdle.activeFlows (h : s.IsIdle) : s.activeFlows = [] := by
  rw [Service.activeFlows, Subscriptions.flows, h.ids]
  rfl

/-- Only calls of others change the monitor of a service that is idle. -/
theorem IsIdle.perform (h : s.IsIdle) {a : Move} (ha : a.isStart = false) :
    (s.perform a).IsIdle ∧
      (s.perform a).monitor = s.monitor.performAll ([a].filterMap Move.call?) := by
  cases a with
  | start fs => cases ha
  | shutdown =>
    have hfeed : (s.perform .shutdown).subscriptions.feed = s.subscriptions.feed := by
      rw [Service.perform, shutdown, Subscriptions.unsubscribeAll, h.ids]
      rfl
    refine ⟨⟨rfl, ?_⟩, ?_⟩
    · rw [hfeed, h.subscriptions]
    · exact congrArg Feed.monitor hfeed
  | advance n =>
    have hfeed : (s.perform (.advance n)).subscriptions.feed =
        { s.subscriptions.feed with now := s.subscriptions.feed.now + n } :=
      Feed.advance_of_subscriptions_eq_nil h.subscriptions n
    refine ⟨⟨h.ids, ?_⟩, ?_⟩
    · rw [hfeed, h.subscriptions]
    · rw [monitor, hfeed]
      rfl
  | call c => exact ⟨⟨h.ids, h.subscriptions⟩, rfl⟩

theorem IsIdle.performAll (h : s.IsIdle) {moves : List Move}
    (hmoves : ∀ a ∈ moves, a.isStart = false) :
    (s.performAll moves).IsIdle ∧
      (s.performAll moves).monitor = s.monitor.performAll (moves.filterMap Move.call?) := by
  induction moves generalizing s with
  | nil => exact ⟨h, rfl⟩
  | cons a moves ih =>
    obtain ⟨hafter, hmonitor⟩ := h.perform (hmoves a List.mem_cons_self)
    obtain ⟨hidle, hlater⟩ := ih hafter fun b hb => hmoves b (List.mem_cons_of_mem _ hb)
    have hcalls : [a].filterMap Move.call? ++ moves.filterMap Move.call? =
        (a :: moves).filterMap Move.call? := List.filterMap_append.symm
    refine ⟨hidle, hlater.trans ?_⟩
    rw [hmonitor, ← hcalls]
    exact List.foldl_append.symm

end Rest

/-! ## The first start -/

section Start

variable {memory : σ} {fs : Files}

theorem start_of_error {e : Error} (h : d.store.loadAll fs = .error e) :
    (ofDeployment d source memory).start fs = (.error e, ofDeployment d source memory) := by
  have hall : (ofDeployment d source memory).deployment.store.loadAll fs = .error e := h
  unfold start
  rw [hall]

theorem start_of_ok (h : d.store.loadAll fs = .ok rs) : (ofDeployment d source memory).start fs =
    (.ok rs.length, rs.foldl startFlow (ofDeployment d source memory)) := by
  have hall : (ofDeployment d source memory).deployment.store.loadAll fs = .ok rs := h
  unfold start
  rw [hall]

theorem tends_start (h : d.store.loadAll fs = .ok rs) :
    Tends d source rs ((ofDeployment d source memory).start fs).2 := by
  rw [start_of_ok h]
  exact (tends_ofDeployment d source memory).startAll rfl rs

/-- The active flows are those that can be read out of some file. -/
theorem mem_activeFlows_start (name : String) :
    name ∈ ((ofDeployment d source memory).start fs).2.activeFlows ↔
      ∃ r, d.store.Returns fs r ∧ r.flowName = name := by
  unfold Store.Returns
  cases hall : d.store.loadAll fs with
  | error e =>
    rw [start_of_error hall]
    constructor
    · exact nofun
    · rintro ⟨r, ⟨rs, hrs, -⟩, -⟩
      cases hrs
  | ok rs =>
    rw [(tends_start hall).attends.active name]
    constructor
    · rintro ⟨r, hr, hname⟩
      exact ⟨r, ⟨rs, rfl, hr⟩, hname⟩
    · rintro ⟨r, ⟨rs', hrs, hr⟩, hname⟩
      exact ⟨r, Except.ok.inj hrs ▸ hr, hname⟩

end Start

/-! ## The number of flows -/

/-- The start is answered with the number of the flows that are then active and registered. -/
def CountsFlows (s : Service σ) (fs : Files) : Prop :=
  ∀ n, (s.start fs).1 = .ok n → (s.start fs).2.activeFlows.length = n ∧
    (s.start fs).2.monitor.flows.length = n

/-- A flow that is registered twice is counted twice. -/
theorem countsFlows_iff {memory : σ} {fs : Files} (h : d.store.loadAll fs = .ok rs) :
    (ofDeployment d source memory).CountsFlows fs ↔ (rs.map Registration.flowName).Nodup := by
  have hanswer : ((ofDeployment d source memory).start fs).1 = .ok rs.length :=
    congrArg Prod.fst (start_of_ok h)
  have hattends : Attends d source rs ((ofDeployment d source memory).start fs).2 :=
    (tends_start h).attends
  rw [← hattends.length_activeFlows_eq_iff]
  have hregistered := congrArg List.length hattends.registered
  rw [List.length_map] at hregistered
  constructor
  · exact fun hcounts => (hcounts rs.length hanswer).1
  · intro hlength n hn
    obtain rfl := Except.ok.inj (hanswer.symm.trans hn)
    exact ⟨hlength, hregistered.trans hlength⟩

def copied : Files :=
  ⟨.ofList [(["configs"], .directory),
    (["configs", "a.json"], .file (Glyph.ofString "\x7b\"flowName\":\"F\"\x7d")),
    (["configs", "b.json"], .file (Glyph.ofString "\x7b\"flowName\":\"F\"\x7d"))], []⟩

theorem loadAll_copied : ∃ r, (Store.mk "./configs").loadAll copied = .ok [r, r] := by
  have hlist : (Store.mk "./configs").list copied = .ok ["a.json", "b.json"] := by
    have hlocate : copied.locate "./configs" = .ok ["configs"] :=
      toOption_eq_some_iff.1 (by decide +kernel)
    have hfiles : (copied.childNames ["configs"]).filter (Path.hasExtension Store.extension) =
        ["a.json", "b.json"] := by decide +kernel
    rw [Store.list_of_directory hlocate (by decide +kernel), hfiles]
    exact congrArg Except.ok (List.mergeSort_of_pairwise (by decide +kernel))
  let r : Registration := ⟨"F", none, Table.empty, FlowDefinition.empty, default⟩
  have ha : (Registration.load copied (Path.join "./configs" "a.json")).toOption = some r := by
    decide +kernel
  have hb : (Registration.load copied (Path.join "./configs" "b.json")).toOption = some r := by
    decide +kernel
  refine ⟨r, ?_⟩
  simp only [Store.loadAll_of_list hlist, List.filterMap_cons, ha, hb, List.filterMap_nil]

/-- Two files may be of one flow. -/
theorem not_countsFlows :
    ¬ ∀ d fs, (ofDeployment d (Mock.source default none) NameMap.empty).CountsFlows fs := by
  intro h
  obtain ⟨r, hall⟩ := loadAll_copied
  have hcounts := (countsFlows_iff (d := ⟨default, "."⟩) hall).1 (h _ copied)
  simp at hcounts

/-! ## All of it -/

/-- How a service starts for the first time, and how it stops. -/
structure StartsAndStops (d : Deployment) (source : Source σ) (memory : σ) (fs : Files) :
    Prop where
  /-- Nothing is started if the directory cannot be listed. -/
  refused : ∀ e, d.store.loadAll fs = .error e →
    (ofDeployment d source memory).start fs = (.error e, ofDeployment d source memory)
  /-- The answer is the number of registrations, -/
  answer : ∀ rs, d.store.loadAll fs = .ok rs →
    ((ofDeployment d source memory).start fs).1 = .ok rs.length
  /-- which is that of the flows if and only if no two of them are of one flow. -/
  counts : ∀ rs, d.store.loadAll fs = .ok rs →
    ((ofDeployment d source memory).CountsFlows fs ↔ (rs.map Registration.flowName).Nodup)
  /-- A flow is active if it can be read out of some file. -/
  active : ∀ name, name ∈ ((ofDeployment d source memory).start fs).2.activeFlows ↔
    ∃ file r, d.store.Keeps fs file r ∧ r.flowName = name
  /-- They are looked after as long as time passes. -/
  attends : ∀ rs, d.store.loadAll fs = .ok rs → ∀ n,
    Attends d source rs (((ofDeployment d source memory).start fs).2.advance n)
  /-- Whatever has happened, nothing happens after the end until the next start. -/
  stops : ∀ moves later, (∀ a ∈ later, a.isStart = false) →
    let s := ((ofDeployment d source memory).start fs).2.performAll moves
    (s.shutdown.performAll later).activeFlows = [] ∧
      (s.shutdown.performAll later).monitor = s.monitor.performAll (later.filterMap Move.call?)

/-- A service starts with what can be read out of its directory, whatever there is, and does nothing
more after its end. -/
theorem startsAndStops (d : Deployment) (source : Source σ) (memory : σ) (fs : Files) :
    StartsAndStops d source memory fs := by
  constructor
  · exact fun e => start_of_error
  · exact fun rs hrs => congrArg Prod.fst (start_of_ok hrs)
  · exact fun rs => countsFlows_iff
  · intro name
    have hkept : ∀ r, (∃ file, d.store.Keeps fs file r) ↔ d.store.Returns fs r :=
      fun r => Store.returns_iff.symm
    rw [mem_activeFlows_start, exists_comm]
    simp only [exists_and_right, hkept]
  · exact fun rs hrs n => ((tends_start hrs).advance n).attends
  · intro moves later hlater
    have htidy := tidy_performAll (tidy_start (tends_ofDeployment d source memory).tidy fs) moves
    obtain ⟨hidle, hmonitor⟩ := (isIdle_shutdown htidy).performAll hlater
    rw [monitor_shutdown htidy] at hmonitor
    exact ⟨hidle.activeFlows, hmonitor⟩

end Service

end Flowline
