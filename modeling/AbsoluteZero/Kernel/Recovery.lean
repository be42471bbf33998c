import AbsoluteZero.Kernel.Coordinator

/-!
# Recovery by replay

`recover` rebuilds the ledger from transition-log records. The record of a transition is recomputed
from the row that is looked up in the rebuilt state, and compared in canonical form; the guard
result, which selects the row, the event id and the info are taken over. The first record that
deviates halts the coordinator.
-/

namespace AbsoluteZero.Kernel

open Foundations

namespace Coordinator

variable (coord : Coordinator) (record : Record)

def replayDeviation : Outcome Coordinator Bool :=
  ⟨({ coord with halted := true }).fault
    ("replay.deviation:sequence=" ++ toString record.sequence) none, .ok false⟩

/-- A replayed record is kept in the log without being published again. -/
def keepRecord : Coordinator :=
  { coord with log := coord.log ++ [record] }

def replayedEntry (record : Record) : RequestState where
  requestId := record.requestId
  declaredType := infoGet record.info "declared_type" (.str "")
  configVersion := record.configVersion

/-- The record that a row would have logged, with the event id, the guard result and the info
carried over from the logged one. -/
def expectedRecord (entry : RequestState) (record : Record) (row : Row) (config : ConfigView)
    (emits : List Json) : Record where
  requestId := record.requestId
  eventId := some (record.eventId.getD .null)
  sequence := entry.transitionSequence + 1
  priorState := entry.lifecycleState
  event := record.event
  guardResult := record.guardResult
  nextState := row.next
  configVersion := config.version
  emittedEvents := emits
  info := record.info

/-- The part of the replay loop that recomputes a transition of an entry. -/
def replayTransition (entry : RequestState)
    (config : ConfigView) (published : Option (List (Json × Nat))) : Outcome Coordinator Bool :=
  match config.rows entry.lifecycleState record.event with
  | .error raised => ⟨coord, .error raised⟩
  | .ok none | .ok (some []) => coord.replayDeviation record
  | .ok (some (first :: rest)) =>
    if entry.lifecycleState ≠ record.priorState ∨
        record.sequence ≠ entry.transitionSequence + 1 then coord.replayDeviation record
    else
      let row :=
        if record.guardResult then first else (first :: rest).getLast (List.cons_ne_nil _ _)
      match row.emit.iterate with
      | .error raised => ⟨coord, .error raised⟩
      | .ok emits =>
        if (expectedRecord entry record row config emits).canonical ≠ record.canonical then
          coord.replayDeviation record
        else
          match row.actionList with
          | .error raised => ⟨coord, .error raised⟩
          | .ok actions =>
            let replayed : RequestState :=
              { entry.doActions actions record.event record.info with
                lifecycleState := row.next
                transitionSequence := record.sequence
                lastAppliedEventId := record.eventId.getD .null }
            let kept := ({ coord with
              ledger := coord.ledger.insert record.requestId replayed }).keepRecord record
            match published with
            | some delivered =>
              if (record.requestId, record.sequence) ∈ delivered then ⟨kept, .ok true⟩
              else
                ⟨kept.publishRow replayed row (row.outcome record.guardResult) config record.info 0
                  emits, .ok true⟩
            | none => ⟨kept, .ok true⟩

/-- One round of the replay loop; false when the record deviates. -/
def replayRecord (published : Option (List (Json × Nat))) : Outcome Coordinator Bool :=
  if record.event = .str "config.changed" then
    match ConfigView.ofData (record.snapshot.getD .null) with
    | .error _ => coord.replayDeviation record
    | .ok view => ⟨(coord.install view).keepRecord record, .ok true⟩
  else if record.event ∈ sessionEvents then ⟨coord.keepRecord record, .ok true⟩
  else if record.event = .str "__cleanup__" then
    ⟨({ coord with ledger := coord.ledger.evict record.requestId }).keepRecord record, .ok true⟩
  else if record.verdict.isSome then ⟨coord.keepRecord record, .ok true⟩
  else
    match coord.configs.at? record.configVersion with
    | none => coord.replayDeviation record
    | some config =>
      match coord.ledger.get? record.requestId with
      | some entry => coord.replayTransition record entry config published
      | none =>
        if record.event ≠ .str "request.received" then coord.replayDeviation record
        else
          match coord.ledger.create (replayedEntry record) with
          | .error raised => ⟨coord, .error raised⟩
          | .ok ledger =>
            ({ coord with ledger := ledger }).replayTransition record (replayedEntry record) config
              published

/-- The replay loop: stops at the first record that deviates or raises. -/
def replay (coord : Coordinator) (published : Option (List (Json × Nat))) :
    List Record → Outcome Coordinator Bool
  | [] => ⟨coord, .ok true⟩
  | record :: rest =>
    match coord.replayRecord record published with
    | ⟨replayed, .ok true⟩ => replayed.replay published rest
    | stopped => stopped

/-- `recover`: start from an empty ledger and log, not halted, and replay the records. -/
def recover (coord : Coordinator) (records : List Record)
    (published : Option (List (Json × Nat))) : Outcome Coordinator Bool :=
  ({ coord with ledger := .empty, log := [], halted := false }).replay published records

end Coordinator

end AbsoluteZero.Kernel
