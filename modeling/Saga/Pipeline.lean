import Saga.Builder

/-!
# Job pipelines

A workflow without side effects: a job is started, sends heartbeats while it runs, completes or
fails, and may be tried again after a failure.
-/

namespace Saga.Pipeline

/-- What happens to a job. -/
inductive Event where
  | start | heartbeat | complete | fail | retry
  deriving DecidableEq, Repr

/-- The message type of an event. -/
def Event.type : Event → MessageType
  | start => ⟨"corrflow_bench::Start", 0⟩
  | heartbeat => ⟨"corrflow_bench::Heartbeat", 0⟩
  | complete => ⟨"corrflow_bench::Complete", 0⟩
  | fail => ⟨"corrflow_bench::Fail", 0⟩
  | retry => ⟨"corrflow_bench::Retry", 0⟩

/-- An event of a job. -/
structure JobMessage where
  event : Event
  id : String
  deriving DecidableEq, Repr

instance : Message JobMessage := ⟨fun m => m.event.type⟩

/-- The stages of a job. -/
def stages : StateSet where
  name := "corrflow_bench::Stage"
  members := [⟨"Created", 0⟩, ⟨"Processing", 1⟩, ⟨"Completed", 2⟩, ⟨"Failed", 3⟩]

/-- The job is running. -/
def stages.processing : stages.State := ⟨⟨"Processing", 1⟩, by decide⟩

/-- The job has come to its end. -/
def stages.completed : stages.State := ⟨⟨"Completed", 2⟩, by decide⟩

/-- The job has failed, and may be tried again. -/
def stages.failed : stages.State := ⟨⟨"Failed", 3⟩, by decide⟩

/-- An action that does nothing. -/
def idle {σ : Type} : Action σ JobMessage := fun _ => pure ()

open stages in
/-- Each job is an instance, found by the job's id. -/
def pipeline (σ : Type) : Definition σ JobMessage where
  id := ⟨"pipeline", 0⟩
  states := stages
  rules := [
    .start Event.start.type processing [idle],
    .on processing Event.heartbeat.type [.action idle],
    .on processing Event.complete.type [.moveTo completed],
    .on processing Event.fail.type [.moveTo failed],
    .on failed Event.retry.type [.moveTo processing],
    .correlate Event.start.type JobMessage.id,
    .correlate Event.heartbeat.type JobMessage.id,
    .correlate Event.complete.type JobMessage.id,
    .correlate Event.fail.type JobMessage.id,
    .correlate Event.retry.type JobMessage.id]

end Saga.Pipeline
