import Flowline.Proofs.Command.Sparing
import Flowline.Proofs.Feed.Pace
import Flowline.Proofs.Simulation.Fetches

/-!
# Watching a flow

Whoever watches a flow while the simulation runs sees its tree after each fetch: the `j`-th text is
the tree of the view after `j` fetches, whatever the time is at the fetches. The limit is looked at
after an update, so at least one is seen, also if the limit is zero (`not_watch_stops`).

What carries a run is that after `k` updates the memory and the records are those after `k` fetches,
and the only subscription is due at once (`HasShown`); `HasShown.look` is one update.
-/

namespace Flowline.Command

open Mock StatusMap Text Time

/-! ## The next instant -/

section Alone

variable {σ : Type} {f : Feed σ} {mine : Subscription} {x : Snapshot} {event : Event} {memory : σ}

/-- A subscription acts in time, and the source has an event at once. -/
theorem act_of_event (hprompt : f.source.IsPrompt) (hperiod : mine.period ≠ 0)
    (hphase : mine.phase = .waiting f.now) (hx : f.monitor.snapshot? mine.flowName = some x)
    (hname : x.name = mine.flowName)
    (hfetch : f.source.fetch f.memory x = (.immediate (.ok event), memory)) :
    f.act mine =
      (({ f with memory := memory }.merged event).tell mine.id
        (.status event (f.monitor.board.mapAfter event)), .waiting (f.now + mine.period)) := by
  have hresult : (f.source.fetch f.memory x).1.result = .ok event := congrArg (·.1.result) hfetch
  have hasked : f.asked x = { f with memory := memory } :=
    congrArg (fun p => { f with memory := p.2 }) hfetch
  have hevent : event.flowName = mine.flowName := (hprompt.named _ _ _ hresult).trans hname
  have hcontains : (f.asked x).monitor.contains event.flowName = true := by
    rw [hevent]
    exact congrArg Option.isSome hx
  rw [Feed.act_of_due hprompt hperiod hphase, Feed.tick_of_delay_eq hx (hprompt.delay _ _), hresult,
    Feed.deliver_of_contains hcontains, hasked]

/-- At the next instant the only subscription, which was due, has told the event. -/
theorem nextInstant_of_event (hdue : f.subscriptions = [mine]) (hprompt : f.source.IsPrompt)
    (hperiod : mine.period ≠ 0) (hphase : mine.phase = .waiting f.now)
    (hx : f.monitor.snapshot? mine.flowName = some x) (hname : x.name = mine.flowName)
    (hfetch : f.source.fetch f.memory x = (.immediate (.ok event), memory)) :
    f.nextInstant =
      { f with
        now := f.now + 1
        monitor := { f.monitor with board := f.monitor.board.apply event }
        memory := memory
        subscriptions := [{ mine with phase := .waiting (f.now + mine.period) }]
        told := f.told ++ [(mine.id, .status event (f.monitor.board.mapAfter event))] } := by
  have hisDue : mine.isDue f.now = true := by simp [Subscription.isDue, Phase.due, hphase]
  have hmine : f.due = [mine] := by simp [Feed.due, hdue, hisDue]
  have hidle : f.idle = { f with subscriptions := [] } := by simp [Feed.idle, hdue, hisDue]
  have hact := act_of_event (f := f.idle) hprompt hperiod hphase hx hname hfetch
  rw [hidle] at hact
  rw [Feed.nextInstant, Feed.settle_eq, hmine, Feed.actAll_cons, if_neg hperiod, Feed.actAll,
    Feed.takeTurn, hidle, hact]
  rfl

end Alone

namespace Watch

/-! ## The texts up to a limit -/

theorem textsUpTo_of_lt {limit seen : Nat} (h : seen + 1 < limit) (w : Watch) :
    w.textsUpTo limit seen = w.look.1 :: w.look.2.textsUpTo limit (seen + 1) := by
  rw [textsUpTo]
  simp [goesOn, h]

theorem textsUpTo_of_le {limit seen : Nat} (h : limit ≤ seen + 1) (w : Watch) :
    w.textsUpTo limit seen = [w.look.1] := by
  rw [textsUpTo]
  simp [goesOn, h]

theorem texts_succ (n : Nat) (w : Watch) : w.texts (n + 1) = w.look.1 :: w.look.2.texts n := rfl

/-- The updates that are seen are those that are still missing, and one if none is. -/
theorem textsUpTo_eq_texts (limit seen : Nat) (w : Watch) :
    w.textsUpTo limit seen = w.texts (max (limit - seen) 1) := by
  induction hmissing : limit - seen generalizing seen w with
  | zero =>
    rw [textsUpTo_of_le (by omega)]
    rfl
  | succ n ih =>
    by_cases h : seen + 1 < limit
    · have hnext : limit - (seen + 1) = n := by omega
      have hmax : max (n + 1) 1 = max n 1 + 1 := by omega
      rw [textsUpTo_of_lt h, ih (seen + 1) _ hnext, hmax, texts_succ]
    · have hmax : max (n + 1) 1 = 1 := by omega
      rw [textsUpTo_of_le (by omega), hmax]
      rfl

/-- All that is shown up to a limit. -/
theorem shows_updates (limit : Nat) (w : Watch) :
    w.shows (updates limit) = String.join (w.textsUpTo limit 0) := by
  rw [textsUpTo_eq_texts, Nat.sub_zero]
  rfl

/-! ## One update -/

/-- After `k` updates, at an instant at which the next one is due. -/
structure HasShown (now : Instant) (s : Snapshot) (map : StatusMap) (k : Nat) (w : Watch) :
    Prop where
  name : w.name = s.name
  period : w.period ≠ 0
  source : ∃ pollInterval, w.feed.source = Mock.source now pollInterval
  due : ∃ id, w.feed.subscriptions = [⟨id, s.name, w.period, .waiting w.feed.now⟩]
  snapshot : w.feed.monitor.snapshot? s.name = some s
  memory : w.feed.memory = (fetches (fun _ => now) s k).2
  map : w.feed.monitor.board.mapOf s.name = mapAfter (fun _ => now) s k map

variable {now : Instant} {s : Snapshot} {map : StatusMap} {k : Nat} {w : Watch}

/-- At the next instant the flow has been fetched once more, and this has been told. -/
theorem HasShown.exists_nextInstant (h : HasShown now s map k w) : ∃ m id event map',
    w.feed.nextInstant =
      { w.feed with
        now := w.feed.now + 1
        monitor := m
        memory := (fetches (fun _ => now) s (k + 1)).2
        subscriptions := [⟨id, s.name, w.period, .waiting (w.feed.now + w.period)⟩]
        told := w.feed.told ++ [(id, .status event map')] } ∧
      m.snapshot? s.name = some s ∧
      m.board.mapOf s.name = mapAfter (fun _ => now) s (k + 1) map := by
  obtain ⟨pollInterval, hsource⟩ := h.source
  obtain ⟨id, hdue⟩ := h.due
  have hfetch : w.feed.source.fetch w.feed.memory s =
      (.immediate (.ok (fetch now (fetches (fun _ => now) s k).2 s).1),
        (fetches (fun _ => now) s (k + 1)).2) := by
    rw [hsource, h.memory]
    rfl
  have hprompt : w.feed.source.IsPrompt := hsource ▸ Feed.isPrompt_mock now pollInterval
  refine ⟨_, id, _, _, nextInstant_of_event hdue hprompt h.period rfl h.snapshot rfl hfetch,
    h.snapshot, ?_⟩
  rw [mapAfter_succ, ← h.map]
  exact Board.mapOf_of_get? ((Board.get?_apply _ _ _).trans (if_pos rfl))

theorem HasShown.look (h : HasShown now s map k w) :
    w.look.1 = Render.tree s.name
        (s.graph.project (mapAfter (fun _ => now) s (k + 1) map)) ++ "\n" ∧
      HasShown now s map (k + 1) w.look.2 := by
  obtain ⟨m, id, event, map', hnext, hsnapshot, hmap⟩ := h.exists_nextInstant
  have hview : m.view? s.name =
      some (s.graph.project (mapAfter (fun _ => now) s (k + 1) map)) := by
    rw [Monitor.view?, hsnapshot, hmap]
    rfl
  have hnews : w.feed.nextInstant.told.drop w.feed.told.length = [(id, .status event map')] := by
    rw [hnext]
    exact List.drop_left
  -- Nothing else happens until the next update is due.
  have hfeed : w.look.2.feed = { w.feed.nextInstant with now := w.feed.now + w.period } := by
    have hperiod := Nat.pos_of_ne_zero h.period
    have hsum : w.feed.now + 1 + (w.period - 1) = w.feed.now + w.period := by omega
    have hquiet : ∀ mine ∈ w.feed.nextInstant.subscriptions,
        w.feed.nextInstant.now + (w.period - 1) ≤ mine.phase.due := by
      rw [hnext]
      exact List.forall_mem_singleton.2 (Nat.le_of_eq hsum)
    refine (Feed.advance_of_quiet hquiet).trans ?_
    rw [hnext]
    dsimp only
    rw [hsum]
  constructor
  · rw [Watch.look, hnews, hnext]
    simp [shown, hview, h.name]
  · constructor
    · exact h.name
    · exact h.period
    · rw [hfeed, hnext]
      exact h.source
    · rw [hfeed, hnext]
      exact ⟨id, rfl⟩
    · rw [hfeed, hnext]
      exact hsnapshot
    · rw [hfeed, hnext]
    · rw [hfeed, hnext]
      exact hmap

/-! ## Runs -/

/-- Each of the texts is the tree of the view after one more fetch. -/
theorem HasShown.texts (h : HasShown now s map k w) (n : Nat) :
    w.texts n = (List.range n).map fun j => Render.tree s.name
      (s.graph.project (mapAfter (fun _ => now) s (k + j + 1) map)) ++ "\n" := by
  induction n generalizing k w with
  | zero => rfl
  | succ n ih =>
    obtain ⟨htext, hnext⟩ := h.look
    rw [texts_succ, htext, ih hnext, List.range_succ_eq_map, List.map_cons, List.map_map]
    refine congrArg _ (List.map_congr_left fun j _ => ?_)
    have hsum : k + 1 + j + 1 = k + (j + 1) + 1 := by omega
    rw [hsum]
    rfl

theorem hasShown_start {m : Monitor} (hs : m.snapshot? s.name = some s) (pollInterval : Option Nat)
    {period : Nat} (hperiod : period ≠ 0) :
    HasShown now s (m.board.mapOf s.name) 0
      (start m (Mock.source now pollInterval) s.name period) where
  name := rfl
  period := hperiod
  source := ⟨pollInterval, rfl⟩
  due := ⟨0, rfl⟩
  snapshot := hs
  memory := rfl
  map := rfl

end Watch

/-! ## Stored flows -/

section Stored

variable {fs : Files} {config : String} {d : Deployment} {r : Registration}

theorem foldl_seed (map : StatusMap) (rs : List Registration) :
    rs.foldl (fun map r => map.seed r.graph.subStageNames) map =
      map.seed (Monitor.declaredBy rs) := by
  induction rs generalizing map with
  | nil => rfl
  | cons r rs ih =>
    rw [List.foldl_cons, ih, ← seed_append]
    rfl

/-- However often a flow has been registered, its sub-stages are pending. -/
theorem get?_mapOf_registerAll {rs : List Registration} (hr : r ∈ rs) {name : String}
    (hname : name ∈ r.graph.subStageNames) :
    ((Monitor.empty.registerAll rs).board.mapOf r.flowName).get? name = some Record.pending := by
  have hdeclared : name ∈ Monitor.declaredBy (rs.filter fun r' => r'.flowName = r.flowName) :=
    List.mem_flatMap.2 ⟨r, List.mem_filter.2 ⟨hr, decide_eq_true rfl⟩, hname⟩
  rw [Monitor.mapOf_registerAll_eq, foldl_seed, get?_seed, if_pos hdeclared]
  rfl

/-- A flow that is told by the files is watched as it is registered, by the time at the start. -/
theorem exists_perform_watch (now : Instant) (hopen : openDeployment fs config = .ok d)
    (hsource : d.settings.source = .mock) (hr : d.store.Tells fs r) :
    ∃ version map w,
      (∀ limit, perform fs now ⟨config, .watch r.flowName limit⟩ = .watching w limit) ∧
      Watch.HasShown now (.ofRegistration version r) map 0 w ∧
      ∀ name ∈ r.graph.subStageNames, map.get? name = some Record.pending := by
  obtain ⟨before, after, hall, hafter⟩ := id hr
  obtain ⟨version, hsnapshot⟩ := snapshot?_of_tells hall hr
  have hmonitor := openMonitor_eq_ok_iff.2 ⟨_, hall, rfl⟩
  have hchosen : openSource d now =
      .ok (Mock.source now (some (1000 * max d.settings.mock.intervalSecs 1))) := by
    rw [openSource, Settings.chosenSource, hsource]
    rfl
  have hperiod : 1000 * max d.settings.mock.intervalSecs 1 ≠ 0 := by omega
  refine ⟨version, _, _, fun limit => ?_,
    Watch.hasShown_start (s := .ofRegistration version r) hsnapshot
      (some (1000 * max d.settings.mock.intervalSecs 1)) hperiod,
    fun name hname => get?_mapOf_registerAll (by simp) hname⟩
  simp only [perform, watch, hopen, hmonitor, hsnapshot, hchosen, orNotFound, bind, Except.bind]
  rfl

/-- Watching a stored flow while the simulation runs shows one text after the other, up to the
limit but one at least, and then it stops: the `j`-th text is the tree of the flow after `j` fetches
of the version that is registered, whatever a clock shows at these. -/
theorem watch_shows_fetches (now : Instant) (hopen : openDeployment fs config = .ok d)
    (hsource : d.settings.source = .mock) (hr : d.store.Tells fs r) :
    ∃ version w, ∀ (limit : Nat) (clock : Nat → Instant),
      perform fs now ⟨config, .watch r.flowName (some limit)⟩ = .watching w (some limit) ∧
      w.textsUpTo limit 0 = (List.range (max limit 1)).map fun j =>
        Render.tree r.flowName (viewAfter clock (.ofRegistration version r) (j + 1)) ++ "\n" := by
  obtain ⟨version, map, w, hperform, hshown, hmap⟩ := exists_perform_watch now hopen hsource hr
  refine ⟨version, w, fun limit clock => ⟨hperform _, ?_⟩⟩
  rw [Watch.textsUpTo_eq_texts, Nat.sub_zero, hshown.texts]
  refine List.map_congr_left fun j _ => ?_
  have hagree : (mapAfter (fun _ => now) (.ofRegistration version r) (j + 1) map).AgreeOn
      r.graph.subStageNames (mapAfter clock (.ofRegistration version r) (j + 1)
        (StatusMap.seed NameMap.empty r.graph.subStageNames)) := by
    refine agreeOn_mapAfter (fun name hname => ?_) (j + 1)
    rw [hmap name hname, get?_seed, if_pos hname]
    rfl
  rw [Nat.zero_add, viewAfter]
  exact congrArg (· ++ "\n") (Render.tree_project_congr r.flowName hagree)

end Stored

/-- A flow with stages in both environments. -/
def bothStages : Registration :=
  ⟨"D", none, Table.empty,
    .text "Sub-stages\nAWS\nCalc \x7b A->B \x7d\nOn-PREM\nBPF \x7b C \x7d\n", default⟩

/-- A directory of flows without settings, with this flow in it. -/
def bothStored : Files :=
  ⟨.ofList [(["configs"], .directory), (["configs", "D.json"], .file (Glyph.ofString
    ("\x7b\"flowName\": \"D\", \"flowDefinition\": \"Sub-stages\\nAWS\\nCalc \x7b A->B \x7d\\n" ++
      "On-PREM\\nBPF \x7b C \x7d\\n\"\x7d")))], []⟩

theorem openDeployment_bothStored :
    openDeployment bothStored "flowtrack.yaml" = .ok ⟨default, "."⟩ :=
  toOption_eq_some_iff.1 (by decide +kernel)

theorem tells_bothStored : (Deployment.store ⟨default, "."⟩).Tells bothStored bothStages := by
  have hall : (Deployment.store ⟨default, "."⟩).loadAll bothStored = .ok [bothStages] :=
    toOption_eq_some_iff.1 (by decide +kernel)
  exact ⟨[], [], hall, fun _ h => nomatch h⟩

/-- Two trees are shown up to the limit two, and one up to the limit zero. -/
theorem watch_shows_fetches_bothStored :
    openDeployment bothStored "flowtrack.yaml" = .ok ⟨default, "."⟩ ∧
      (default : Settings).source = .mock ∧
      (Deployment.store ⟨default, "."⟩).Tells bothStored bothStages ∧
      ∃ w, (∀ limit, perform bothStored default ⟨"flowtrack.yaml", .watch "D" (some limit)⟩ =
          .watching w (some limit)) ∧
        (w.textsUpTo 0 0).length = 1 ∧ (w.textsUpTo 2 0).length = 2 := by
  obtain ⟨version, w, h⟩ :=
    watch_shows_fetches default openDeployment_bothStored rfl tells_bothStored
  refine ⟨openDeployment_bothStored, rfl, tells_bothStored, w,
    fun limit => (h limit fun _ => default).1, ?_, ?_⟩
  · rw [(h 0 fun _ => default).2, List.length_map, List.length_range]
    rfl
  · rw [(h 2 fun _ => default).2, List.length_map, List.length_range]
    rfl

/-- With the limit zero one tree is shown, not none. -/
theorem not_watch_stops : ¬ ∀ (fs : Files) (now : Instant) (config name : String) (limit : Nat)
    (w : Watch), perform fs now ⟨config, .watch name (some limit)⟩ = .watching w (some limit) →
      (w.textsUpTo limit 0).length = limit := by
  intro h
  obtain ⟨_, _, w, hperform, -⟩ :=
    exists_perform_watch default openDeployment_bothStored rfl tells_bothStored
  have hlength := h _ _ _ _ 0 w (hperform (some 0))
  rw [Watch.textsUpTo_of_le (Nat.zero_le _)] at hlength
  cases hlength

end Flowline.Command
