import Flowline.Proofs.Simulation.Progress
import Mathlib.Order.Monotone.Basic

/-!
# Flows do not get in each other's way

All flows take their versions from one counter, and the simulation knows that a flow has been
registered again by its version only. Still a flow fares as if there were no others: if all moves
about other flows are left out, then the versions are others, in the same order, and nothing else
changes (`exists_faresAlone`).

Two runs are compared, as to one flow: `Mirrors` says that the one shows what the other shows, with
the versions renumbered. A move about another flow keeps it, though only the one run makes it
(`Mirrors.other`), and so does a move about the flow that both make (`Mirrors.perform`). A new
version is the highest of both runs so far, so the renumbering can be extended (`extend`).
-/

namespace Flowline

/-! ## Other versions -/

section Renumber

variable (φ : Nat → Nat)

def Snapshot.renumber (x : Snapshot) : Snapshot := { x with version := φ x.version }

def Mock.Progress.renumber (p : Mock.Progress) : Mock.Progress := { p with version := φ p.version }

def Monitor.Answer.renumber : Monitor.Answer → Monitor.Answer
  | registered x => registered (x.renumber φ)
  | removed found => removed found
  | applied result => applied result

namespace Simulation

/-- Events have no versions. -/
def Reply.renumber : Reply → Reply
  | called answer => called (answer.renumber φ)
  | fetched news => fetched news

def Exchange.renumber (x : Exchange) : Exchange := { x with reply := x.reply.renumber φ }

end Simulation

end Renumber

theorem Snapshot.renumber_ofRegistration (φ : Nat → Nat) (version : Nat) (r : Registration) :
    (ofRegistration version r).renumber φ = ofRegistration (φ version) r := rfl

namespace Mock

variable {φ : Nat → Nat} {m m' : Memory} {x : Snapshot}

/-- The simulation asks only whether two versions are the same. -/
theorem progressOf_renumber (hφ : Function.Injective φ)
    (h : m.get? x.name = (m'.get? x.name).map (Progress.renumber φ)) :
    progressOf m (x.renumber φ) = (progressOf m' x).renumber φ := by
  have hname : (x.renumber φ).name = x.name := rfl
  have hversion : (x.renumber φ).version = φ x.version := rfl
  unfold progressOf
  rw [hname, h]
  cases m'.get? x.name with
  | none => rfl
  | some p =>
    simp only [Option.map_some, hversion, Progress.renumber, hφ.eq_iff]
    split
    · rfl
    · rfl

theorem fetch_renumber (hφ : Function.Injective φ)
    (h : m.get? x.name = (m'.get? x.name).map (Progress.renumber φ)) (now : Time.Instant) :
    (fetch now m (x.renumber φ)).1 = (fetch now m' x).1 ∧
      (fetch now m (x.renumber φ)).2.get? x.name =
        ((fetch now m' x).2.get? x.name).map (Progress.renumber φ) := by
  have hprogress := progressOf_renumber hφ h
  have hnames : (x.renumber φ).graph = x.graph := rfl
  have hname : (x.renumber φ).name = x.name := rfl
  constructor
  · simp only [fetch, hprogress, hnames, hname]
    rfl
  · simp only [fetch, hprogress, hnames, hname, NameMap.get?_insert, if_true]
    rfl

theorem version_progressOf (m : Memory) (x : Snapshot) : (progressOf m x).version = x.version := by
  unfold progressOf
  split
  · split
    · next h => exact h
    · rfl
  · rfl

/-- What is known of a flow after a fetch is known of the version that was fetched. -/
theorem version_of_get?_fetch {now : Time.Instant} {p : Progress}
    (h : (fetch now m x).2.get? x.name = some p) : p.version = x.version := by
  have hget := (NameMap.get?_insert m x.name x.name _).symm.trans h
  rw [if_pos rfl] at hget
  obtain rfl := Option.some.inj hget
  exact version_progressOf m x

end Mock

namespace Simulation

/-! ## Two runs as to one flow -/

section Perform

variable {s : Simulation} {f : String}

theorem isNamed_perform (h : s.monitor.IsNamed) (a : Move) : (s.perform a).monitor.IsNamed := by
  cases a with
  | call c => exact Monitor.isNamed_perform h c
  | fetch f' now merged => exact Monitor.isNamed_congr (registry_perform_fetch s f' now merged) h

theorem lastVersion_le_perform (s : Simulation) (a : Move) :
    s.monitor.registry.lastVersion ≤ (s.perform a).monitor.registry.lastVersion := by
  cases a with
  | call c => exact (Monitor.lastVersion_perform s.monitor c).symm ▸ Nat.le_add_right _ _
  | fetch f' now merged => rw [registry_perform_fetch]

theorem perform_fetch_of_none (h : s.monitor.snapshot? f = none) (now : Time.Instant)
    (merged : Bool) : s.perform (.fetch f now merged) = s := by
  rw [perform, Simulation.fetch?, h, Option.map_none]

theorem perform_fetch_of_some {x : Snapshot} (h : s.monitor.snapshot? f = some x)
    (now : Time.Instant) (merged : Bool) :
    s.perform (.fetch f now merged) =
      ⟨if merged then (s.monitor.perform (.apply (Mock.fetch now s.memory x).1)).2 else s.monitor,
        (Mock.fetch now s.memory x).2⟩ := by
  rw [perform, Simulation.fetch?, h, Option.map_some]

theorem progress_perform_of_ne (hs : s.monitor.IsNamed) {a : Move} (h : a.flowName ≠ f) :
    (s.perform a).memory.get? f = s.memory.get? f := by
  cases a with
  | call c => rfl
  | fetch f' now merged =>
    cases hx : s.monitor.snapshot? f' with
    | none => rw [perform_fetch_of_none hx]
    | some x =>
      obtain rfl : x.name = f' := hs f' x hx
      rw [perform_fetch_of_some hx]
      exact (NameMap.get?_insert s.memory x.name f _).trans (if_neg h)

theorem reply_fetch_of_none (h : s.monitor.snapshot? f = none) (now : Time.Instant)
    (merged : Bool) : s.reply (.fetch f now merged) = .fetched none := by
  rw [reply, Simulation.fetch?, h, Option.map_none, Option.map_none]

theorem reply_fetch_of_some {x : Snapshot} (h : s.monitor.snapshot? f = some x)
    (now : Time.Instant) (merged : Bool) :
    s.reply (.fetch f now merged) = .fetched (some ((Mock.fetch now s.memory x).1,
      if merged then some (s.monitor.perform (.apply (Mock.fetch now s.memory x).1)).1
      else none)) := by
  rw [reply, Simulation.fetch?, h, Option.map_some, Option.map_some]

end Perform

/-- The one simulation shows of a flow what the other one shows, with other versions. -/
structure Mirrors (φ : Nat → Nat) (f : String) (s t : Simulation) : Prop where
  increasing : StrictMono φ
  named : s.monitor.IsNamed
  named_alone : t.monitor.IsNamed
  snapshot : s.monitor.snapshot? f = (t.monitor.snapshot? f).map (Snapshot.renumber φ)
  map : s.monitor.board.get? f = t.monitor.board.get? f
  progress : s.memory.get? f = (t.memory.get? f).map (Mock.Progress.renumber φ)
  /-- The versions that are renumbered have been taken, in both. -/
  last_le : φ t.monitor.registry.lastVersion ≤ s.monitor.registry.lastVersion
  version_le : ∀ x, t.monitor.snapshot? f = some x → x.version ≤ t.monitor.registry.lastVersion
  known_le : ∀ p, t.memory.get? f = some p → p.version ≤ t.monitor.registry.lastVersion

theorem mirrors_empty (f : String) : Mirrors id f empty empty where
  increasing := strictMono_id
  named := Monitor.isNamed_empty
  named_alone := Monitor.isNamed_empty
  snapshot := rfl
  map := rfl
  progress := rfl
  last_le := le_rfl
  version_le := nofun
  known_le := nofun

/-- The versions up to `last` are renumbered as before, those after it in steps of one after
`last'`. -/
def extend (φ : Nat → Nat) (last last' v : Nat) : Nat :=
  if v ≤ last then φ v else last' + (v - last)

theorem extend_succ (φ : Nat → Nat) (last last' : Nat) :
    extend φ last last' (last + 1) = last' + 1 := by
  rw [extend, if_neg (by omega)]
  omega

theorem strictMono_extend {φ : Nat → Nat} (hφ : StrictMono φ) {last last' : Nat}
    (h : φ last ≤ last') : StrictMono (extend φ last last') := by
  intro v w hvw
  unfold extend
  by_cases hw : w ≤ last
  · rw [if_pos (hvw.le.trans hw), if_pos hw]
    exact hφ hvw
  · rw [if_neg hw]
    split
    · next hv =>
      have := hφ.monotone hv
      omega
    · omega

section Mirrors

variable {φ ψ : Nat → Nat} {f : String} {s s' t t' : Simulation}

theorem Mirrors.contains (h : Mirrors φ f s t) : s.monitor.contains f = t.monitor.contains f := by
  have hsome := congrArg Option.isSome h.snapshot
  rwa [Option.isSome_map] at hsome

theorem Mirrors.mapOf (h : Mirrors φ f s t) :
    s.monitor.board.mapOf f = t.monitor.board.mapOf f := by
  rw [Board.mapOf, h.map, ← Board.mapOf]

/-- Versions that have not been taken may be renumbered otherwise. -/
theorem Mirrors.renumbered (h : Mirrors φ f s t) (hψ : StrictMono ψ)
    (hagree : ∀ v ≤ t.monitor.registry.lastVersion, ψ v = φ v) : Mirrors ψ f s t where
  increasing := hψ
  named := h.named
  named_alone := h.named_alone
  snapshot := by
    rw [h.snapshot]
    apply Option.map_congr
    intro x hx
    rw [Snapshot.renumber, Snapshot.renumber, hagree x.version (h.version_le x hx)]
  map := h.map
  progress := by
    rw [h.progress]
    apply Option.map_congr
    intro p hp
    rw [Mock.Progress.renumber, Mock.Progress.renumber, hagree p.version (h.known_le p hp)]
  last_le := by
    rw [hagree _ le_rfl]
    exact h.last_le
  version_le := h.version_le
  known_le := h.known_le

/-- A change that leaves the registries as they are. -/
theorem Mirrors.congr (h : Mirrors φ f s t) (hs : s'.monitor.registry = s.monitor.registry)
    (ht : t'.monitor.registry = t.monitor.registry)
    (hmap : s'.monitor.board.get? f = t'.monitor.board.get? f)
    (hprogress : s'.memory.get? f = (t'.memory.get? f).map (Mock.Progress.renumber φ))
    (hknown : ∀ p, t'.memory.get? f = some p → p.version ≤ t.monitor.registry.lastVersion) :
    Mirrors φ f s' t' where
  increasing := h.increasing
  named := Monitor.isNamed_congr hs h.named
  named_alone := Monitor.isNamed_congr ht h.named_alone
  snapshot := by
    have hsnapshot := h.snapshot
    unfold Monitor.snapshot? at hsnapshot ⊢
    rw [hs, ht]
    exact hsnapshot
  map := hmap
  progress := hprogress
  last_le := by
    rw [hs, ht]
    exact h.last_le
  version_le := by
    unfold Monitor.snapshot?
    rw [ht]
    exact h.version_le
  known_le := by
    rw [ht]
    exact hknown

/-- Only the first one makes a move about another flow. -/
theorem Mirrors.other (h : Mirrors φ f s t) {a : Move} (ha : a.flowName ≠ f) :
    Mirrors φ f (s.perform a) t := by
  obtain ⟨hsnapshot, hmap⟩ := perform_of_ne h.named ha
  constructor
  · exact h.increasing
  · exact isNamed_perform h.named a
  · exact h.named_alone
  · exact hsnapshot.trans h.snapshot
  · exact hmap.trans h.map
  · exact (progress_perform_of_ne h.named ha).trans h.progress
  · exact h.last_le.trans (lastVersion_le_perform s a)
  · exact h.version_le
  · exact h.known_le

/-- Registering the flow takes a version in both that is higher than all before. -/
theorem Mirrors.register (h : Mirrors φ f s t) {r : Registration} (hr : r.flowName = f) :
    Mirrors (extend φ t.monitor.registry.lastVersion s.monitor.registry.lastVersion) f
      (s.perform (.call (.register r))) (t.perform (.call (.register r))) := by
  -- Nothing has had the version that is taken now, so it may be renumbered in any way.
  have hold := h.renumbered (strictMono_extend h.increasing h.last_le) fun v hv => if_pos hv
  have hs := (Monitor.snapshot?_register s.monitor r f).trans (if_pos hr)
  have ht := (Monitor.snapshot?_register t.monitor r f).trans (if_pos hr)
  constructor
  · exact hold.increasing
  · exact Monitor.isNamed_register s.monitor h.named r
  · exact Monitor.isNamed_register t.monitor h.named_alone r
  · refine hs.trans (Eq.trans ?_ (congrArg (Option.map (Snapshot.renumber _)) ht).symm)
    rw [Option.map_some, Snapshot.renumber_ofRegistration, extend_succ]
  · have hseed := s.monitor.board.get?_seed f
      (.ofRegistration (s.monitor.registry.lastVersion + 1) r)
    have hseed' := t.monitor.board.get?_seed f
      (.ofRegistration (t.monitor.registry.lastVersion + 1) r)
    have hmap := congrArg (StatusMap.seed · r.graph.subStageNames) h.mapOf
    exact ((hseed.trans (if_pos hr)).trans (congrArg some hmap)).trans
      (hseed'.trans (if_pos hr)).symm
  · exact hold.progress
  · exact (extend_succ φ t.monitor.registry.lastVersion s.monitor.registry.lastVersion).le
  · intro x hx
    obtain rfl := Option.some.inj (ht.symm.trans hx)
    exact le_rfl
  · exact fun p hp => Nat.le_succ_of_le (h.known_le p hp)

theorem Mirrors.remove (h : Mirrors φ f s t) :
    Mirrors φ f (s.perform (.call (.remove f))) (t.perform (.call (.remove f))) := by
  have hs := (s.monitor.registry.get?_remove f f).trans (if_pos rfl)
  have ht := (t.monitor.registry.get?_remove f f).trans (if_pos rfl)
  have hmap := (s.monitor.board.get?_remove f f).trans (if_pos rfl)
  have hmap' := (t.monitor.board.get?_remove f f).trans (if_pos rfl)
  constructor
  · exact h.increasing
  · exact Monitor.isNamed_perform h.named (.remove f)
  · exact Monitor.isNamed_perform h.named_alone (.remove f)
  · exact hs.trans (congrArg (Option.map _) ht).symm
  · exact hmap.trans hmap'.symm
  · exact h.progress
  · exact h.last_le
  · intro x hx
    cases ht.symm.trans hx
  · exact h.known_le

/-- An event of the flow is accepted by both or by neither. -/
theorem Mirrors.apply (h : Mirrors φ f s t) {e : Event} (he : e.flowName = f) :
    (s.monitor.perform (.apply e)).1 = (t.monitor.perform (.apply e)).1 ∧
      (s.monitor.perform (.apply e)).2.board.get? f =
        (t.monitor.perform (.apply e)).2.board.get? f := by
  subst he
  have hcontains := h.contains
  cases hc : t.monitor.contains e.flowName with
  | true =>
    rw [hc] at hcontains
    rw [Monitor.perform_apply_of_contains hc, Monitor.perform_apply_of_contains hcontains]
    dsimp only
    rw [Board.get?_apply, Board.get?_apply, Board.mapAfter, Board.mapAfter, h.mapOf, if_pos rfl,
      if_pos rfl]
    exact ⟨rfl, rfl⟩
  | false =>
    rw [hc] at hcontains
    rw [Monitor.perform_apply_of_not_contains hc, Monitor.perform_apply_of_not_contains hcontains]
    exact ⟨rfl, h.map⟩

/-- A fetch of the flow has the same news in both. -/
theorem Mirrors.fetch (h : Mirrors φ f s t) (now : Time.Instant) (merged : Bool) :
    Mirrors φ f (s.perform (.fetch f now merged)) (t.perform (.fetch f now merged)) ∧
      s.reply (.fetch f now merged) = t.reply (.fetch f now merged) := by
  cases hx : t.monitor.snapshot? f with
  | none =>
    have hxs : s.monitor.snapshot? f = none := by rw [h.snapshot, hx, Option.map_none]
    rw [perform_fetch_of_none hx, perform_fetch_of_none hxs, reply_fetch_of_none hx,
      reply_fetch_of_none hxs]
    exact ⟨h, rfl⟩
  | some x =>
    have hxs : s.monitor.snapshot? f = some (x.renumber φ) := by
      rw [h.snapshot, hx, Option.map_some]
    obtain rfl : x.name = f := h.named_alone f x hx
    obtain ⟨hevent, hmemory⟩ := Mock.fetch_renumber h.increasing.injective h.progress now
    have happly := h.apply (e := (Mock.fetch now t.memory x).1) rfl
    constructor
    · apply h.congr
      · exact registry_perform_fetch s x.name now merged
      · exact registry_perform_fetch t x.name now merged
      · rw [perform_fetch_of_some hx, perform_fetch_of_some hxs, hevent]
        cases merged with
        | false => exact h.map
        | true => exact happly.2
      · rw [perform_fetch_of_some hx, perform_fetch_of_some hxs]
        exact hmemory
      · intro p hp
        rw [perform_fetch_of_some hx] at hp
        rw [Mock.version_of_get?_fetch hp]
        exact h.version_le x hx
    · rw [reply_fetch_of_some hx, reply_fetch_of_some hxs, hevent, happly.1]

theorem reply_register (t : Simulation) (r : Registration) :
    t.reply (.call (.register r)) =
      .called (.registered (.ofRegistration (t.monitor.registry.lastVersion + 1) r)) :=
  rfl

theorem renumber_reply_apply (φ : Nat → Nat) (t : Simulation) (e : Event) :
    (t.reply (.call (.apply e))).renumber φ = t.reply (.call (.apply e)) := by
  cases hc : t.monitor.contains e.flowName with
  | true =>
    rw [reply, Monitor.perform_apply_of_contains hc]
    rfl
  | false =>
    rw [reply, Monitor.perform_apply_of_not_contains hc]
    rfl

/-- Both make the same move about the flow. -/
theorem Mirrors.perform (h : Mirrors φ f s t) {a : Move} (ha : a.flowName = f) :
    ∃ ψ, (∀ v ≤ t.monitor.registry.lastVersion, ψ v = φ v) ∧
      Mirrors ψ f (s.perform a) (t.perform a) ∧ s.reply a = (t.reply a).renumber ψ := by
  have hsame : ∀ v ≤ t.monitor.registry.lastVersion, φ v = φ v := fun _ _ => rfl
  cases a with
  | call c =>
    cases c with
    | register r =>
      refine ⟨extend φ t.monitor.registry.lastVersion s.monitor.registry.lastVersion,
        fun v hv => if_pos hv, h.register ha, ?_⟩
      rw [reply_register, reply_register, Reply.renumber, Monitor.Answer.renumber,
        Snapshot.renumber_ofRegistration, extend_succ]
    | remove name =>
      subst ha
      refine ⟨φ, hsame, h.remove, ?_⟩
      exact congrArg (fun found => Reply.called (.removed found)) h.contains
    | apply e =>
      obtain ⟨hanswer, hmap⟩ := h.apply ha
      refine ⟨φ, hsame, ?_, ?_⟩
      · apply h.congr
        · exact Monitor.registry_perform_apply
        · exact Monitor.registry_perform_apply
        · exact hmap
        · exact h.progress
        · exact h.known_le
      · rw [renumber_reply_apply]
        exact congrArg Reply.called hanswer
  | fetch f' now merged =>
    subst ha
    obtain ⟨hafter, hreply⟩ := h.fetch now merged
    exact ⟨φ, hsame, hafter, hreply⟩

end Mirrors

/-! ## Leaving out the other flows -/

def alone (f : String) (moves : List Move) : List Move := moves.filter fun a => a.flowName = f

def about (f : String) (xs : List Exchange) : List Exchange :=
  xs.filter fun x => x.move.flowName = f

/-- All that two simulations show of a flow is the same, but for the versions. -/
structure Alike (φ : Nat → Nat) (f : String) (s t : Simulation) : Prop where
  snapshot : s.monitor.snapshot? f = (t.monitor.snapshot? f).map (Snapshot.renumber φ)
  graph : s.monitor.graph? f = t.monitor.graph? f
  status : s.monitor.status? f = t.monitor.status? f
  view : s.monitor.view? f = t.monitor.view? f
  /-- The next event of the flow. -/
  news : ∀ now, (s.fetch? f now).map Prod.fst = (t.fetch? f now).map Prod.fst

/-- The flow fares as if there were no others: the moves about it are answered the same, and at
every time the same is shown of it. -/
structure FaresAlone (f : String) (moves : List Move) (φ : Nat → Nat) : Prop where
  increasing : StrictMono φ
  answers : about f (empty.exchanges moves) =
    (empty.exchanges (alone f moves)).map (Exchange.renumber φ)
  shows : ∀ before, before <+: moves →
    Alike φ f (empty.performAll before) (empty.performAll (alone f before))

section Run

variable {φ ψ : Nat → Nat} {f : String} {s t : Simulation}

theorem Mirrors.alike (h : Mirrors φ f s t) : Alike φ f s t where
  snapshot := h.snapshot
  graph := by
    rw [Monitor.graph?, h.snapshot, Option.map_map]
    rfl
  status := by rw [Monitor.status?, Monitor.status?, h.contains, h.mapOf]
  view := by
    rw [Monitor.view?, Monitor.view?, h.snapshot, h.mapOf, Option.map_map]
    rfl
  news := by
    intro now
    rw [Simulation.fetch?, Simulation.fetch?, h.snapshot, Option.map_map, Option.map_map,
      Option.map_map]
    apply Option.map_congr
    intro x hx
    obtain rfl : x.name = f := h.named_alone f x hx
    exact (Mock.fetch_renumber h.increasing.injective h.progress now).1

/-- An answer gives no version that has not been taken. -/
theorem renumber_reply_congr {a : Move}
    (h : ∀ v ≤ (t.perform a).monitor.registry.lastVersion, ψ v = φ v) :
    (t.reply a).renumber ψ = (t.reply a).renumber φ := by
  cases a with
  | call c =>
    cases c with
    | register r =>
      have hversion := h (t.monitor.registry.lastVersion + 1) le_rfl
      rw [reply_register, Reply.renumber, Reply.renumber, Monitor.Answer.renumber,
        Monitor.Answer.renumber, Snapshot.renumber_ofRegistration, hversion,
        ← Snapshot.renumber_ofRegistration]
    | remove name => rfl
    | apply e => rw [renumber_reply_apply, renumber_reply_apply]
  | fetch f' now merged => rfl

/-- Any number of moves, of which the second run makes only those about the flow. -/
theorem Mirrors.run (h : Mirrors φ f s t) (moves : List Move) :
    ∃ ψ, (∀ v ≤ t.monitor.registry.lastVersion, ψ v = φ v) ∧
      about f (s.exchanges moves) =
        (t.exchanges (alone f moves)).map (Exchange.renumber ψ) ∧
      ∀ before, before <+: moves →
        Mirrors ψ f (s.performAll before) (t.performAll (alone f before)) := by
  -- The renumbering grows whenever the flow is registered. Up to the versions that have been taken
  -- it stays as it is, so the last one fits all states on the way.
  induction moves generalizing φ s t with
  | nil =>
    refine ⟨φ, fun _ _ => rfl, rfl, ?_⟩
    intro before hbefore
    obtain rfl := List.prefix_nil.1 hbefore
    exact h
  | cons a moves ih =>
    by_cases ha : a.flowName = f
    · obtain ⟨φ', hφ', hafter, hreply⟩ := h.perform ha
      obtain ⟨ψ, hψ, hanswers, hshows⟩ := ih hafter
      have hagree : ∀ v ≤ t.monitor.registry.lastVersion, ψ v = φ v := fun v hv =>
        (hψ v (hv.trans (lastVersion_le_perform t a))).trans (hφ' v hv)
      have halone : ∀ moves, alone f (a :: moves) = a :: alone f moves := fun moves =>
        List.filter_cons_of_pos (decide_eq_true ha)
      refine ⟨ψ, hagree, ?_, ?_⟩
      · have habout : about f (s.exchanges (a :: moves)) =
            ⟨a, s.reply a⟩ :: about f ((s.perform a).exchanges moves) :=
          List.filter_cons_of_pos (decide_eq_true ha)
        rw [halone, habout, exchanges, hanswers, List.map_cons, Exchange.renumber,
          renumber_reply_congr hψ, ← hreply]
      · intro before hbefore
        rcases List.prefix_cons_iff.1 hbefore with rfl | ⟨before, rfl, hbefore'⟩
        · exact h.renumbered (hshows [] List.nil_prefix).increasing hagree
        · rw [halone]
          exact hshows before hbefore'
    · obtain ⟨ψ, hψ, hanswers, hshows⟩ := ih (h.other ha)
      have halone : ∀ moves, alone f (a :: moves) = alone f moves := fun moves =>
        List.filter_cons_of_neg (by simpa using ha)
      refine ⟨ψ, hψ, ?_, ?_⟩
      · have habout : about f (s.exchanges (a :: moves)) =
            about f ((s.perform a).exchanges moves) :=
          List.filter_cons_of_neg (by simpa using ha)
        rw [halone, habout, hanswers]
      · intro before hbefore
        rcases List.prefix_cons_iff.1 hbefore with rfl | ⟨before, rfl, hbefore'⟩
        · exact h.renumbered (hshows [] List.nil_prefix).increasing hψ
        · rw [halone]
          exact hshows before hbefore'

end Run

/-- Leaving out all moves about other flows changes nothing for a flow but the versions, and these
keep their order. -/
theorem exists_faresAlone (f : String) (moves : List Move) : ∃ φ, FaresAlone f moves φ := by
  obtain ⟨φ, -, hanswers, hshows⟩ := (mirrors_empty f).run moves
  refine ⟨φ, ?_, hanswers, ?_⟩
  · exact (hshows [] List.nil_prefix).increasing
  · exact fun before hbefore => (hshows before hbefore).alike

end Simulation

end Flowline
