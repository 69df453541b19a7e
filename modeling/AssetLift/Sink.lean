import AssetLift.Diagnostic

/-!
# Sinks

Whoever wants to hear of a run while it goes on gives it a sink. A sink takes one diagnostic at a
time and makes of it what it wants.

* `Sink.take` — what a sink holds after diagnostics; a run can do without one.
-/

namespace AssetLift

/-- A taker of diagnostics, which never fails. -/
structure Sink (σ : Type) where
  emit : σ → Diagnostic → σ

namespace Sink

/-- What a sink holds after diagnostics, in order. Without a sink nothing happens. -/
def take (sink : Option (Sink σ)) (held : σ) (ds : List Diagnostic) : σ :=
  match sink with
  | none => held
  | some s => ds.foldl s.emit held

/-- A sink that keeps everything. -/
def log : Sink (List Diagnostic) := ⟨fun held d => held ++ [d]⟩

end Sink

end AssetLift
