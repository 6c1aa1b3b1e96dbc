import Flowline.Proofs.Source.Answers
import Flowline.Source.Mock

/-!
# Sources that keep flows apart

Each flow has a part of the memory of such a source. A fetch reads and changes no other part than
that of its flow, and its event is about this flow. The simulation and the databases are such
sources.
-/

namespace Flowline

/-- Fetches of different flows do not get in each other's way. -/
structure Source.KeepsApart {σ π : Type} (source : Source σ) (part : String → σ → π) : Prop where
  fetch : ∀ m m' s, part s.name m = part s.name m' →
    (source.fetch m s).1 = (source.fetch m' s).1 ∧
    part s.name (source.fetch m s).2 = part s.name (source.fetch m' s).2
  others : ∀ m s name, s.name ≠ name → part name (source.fetch m s).2 = part name m
  named : ∀ m s event, (source.fetch m s).1.result = .ok event → event.flowName = s.name

/-- The simulation has the progress of each flow. -/
theorem Mock.keepsApart_source (now : Time.Instant) (pollInterval : Option Nat) :
    (Mock.source now pollInterval).KeepsApart fun name m => m.get? name where
  fetch m m' s h := by
    have hprogress : progressOf m s = progressOf m' s := by
      unfold progressOf
      rw [h]
    constructor
    · simp only [source, Mock.fetch, hprogress]
    · simp only [source, Mock.fetch, hprogress, NameMap.get?_insert, if_true]
  others m s name h := (NameMap.get?_insert m s.name name _).trans (if_neg h)
  named m s event h := by
    cases h
    rfl

/-- The databases have nothing to remember. -/
theorem Database.keepsApart_source (server : Server) (tables : Tables) (now : Time.Instant) :
    (Database.source server tables now).KeepsApart fun _ m => m where
  fetch _ _ _ _ := ⟨rfl, rfl⟩
  others _ _ _ _ := rfl
  named _ s event h := by
    rcases result_cases (server.answers tables (Targets.ofGraph s.graph)) now s with
      ⟨message, -, hresult⟩ | ⟨-, hresult⟩
    · cases hresult.symm.trans h
    · cases hresult.symm.trans h
      rfl

end Flowline
