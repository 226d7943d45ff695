import ServiceKit.Import.Row
import ServiceKit.Context
import ServiceKit.Observe.Log
import ServiceKit.Observe.Metrics
import ServiceKit.Record.FromJson

namespace ServiceKit.Import
open Validation

abbrev TransactionId := Nat

inductive Called (α : Type) where
  | returned (a : α)
  | failed (message : String)
  | panicked (message : String)
deriving DecidableEq, Repr

inductive Processed where
  | accepted
  | refused (f : Failure)
  | panicked (message : String)
deriving DecidableEq, Repr

structure Seam (σ : Type) where
  begin : σ → Called TransactionId × σ
  process : Context → Datum → TransactionId → Nat → σ → Processed × σ
  commit : TransactionId → σ → Called Unit × σ
  rollback : TransactionId → σ → Called Unit × σ

def Seam.noTransaction (process : Context → Datum → Nat → σ → Processed × σ) : Seam σ where
  begin s := (.returned 0,s)
  process c d _ worker s := process c d worker s
  commit _ s := (.returned (),s)
  rollback _ s := (.returned (),s)

structure RowOutcome where
  line : Nat
  error : Option Envelope
deriving DecidableEq, Repr

def RowOutcome.isFailed (o : RowOutcome) : Bool := o.error.isSome

structure Placed where
  place : Nat
  row : RawRow
deriving DecidableEq, Repr

structure GoodRow where
  place : Nat
  line : Nat
  datum : Datum
  value : Json

structure Report where
  place : Nat
  outcome : RowOutcome
deriving DecidableEq, Repr

inductive Phase where
  | idle
  | beginning (row : GoodRow)
  | processing (row : GoodRow) (tx : TransactionId)
  | committing (row : GoodRow) (tx : TransactionId)
  | rollingBack (row : GoodRow) (tx : TransactionId) (error : Envelope)
  | reporting (r : Report)
  | finished
  | dead (place : Nat) (message : String)

inductive Asked where
  | begun (answer : Called TransactionId)
  | processed (ctx : Context) (datum : Datum) (tx : TransactionId) (answer : Processed)
  | committed (tx : TransactionId) (answer : Called Unit)
  | rolledBack (tx : TransactionId) (answer : Called Unit)

structure SeamCall where
  place : Nat
  worker : Nat
  asked : Asked

namespace Phase

def isGone : Phase → Bool
  | .finished | .dead .. => true
  | _ => false

def place? : Phase → Option Nat
  | .idle | .finished => none
  | .beginning row | .processing row _ | .committing row _ | .rollingBack row _ _ => some row.place
  | .reporting r => some r.place
  | .dead place _ => some place

def failed (place line : Nat) (e : Envelope) : Phase := .reporting ⟨place,line,some e⟩

def ofRow (c : Catalog) (s : Shape) (p : Placed) : Phase :=
  let raw := p.row
  match Record.fromJson c s raw.toJson with
  | .error m =>
    failed p.place raw.line ((Envelope.badRequest "failed to decode row" "ERROR_PARSING_ROW").withData
      (.object [("error",.string m.message),("row",raw.toJson)]))
  | .ok d =>
    let value := d.toJson.sorted
    match validateIn s.rootName d .create with
    | [] => .beginning ⟨p.place,raw.line,d,value⟩
    | errors =>
      failed p.place raw.line ((Envelope.badRequest "validation error" Code.validationError).withData
        (.object [("row",value),("validation_error",errorsJson errors)]))

def transactionFailed (what : String) (row : GoodRow) (m : String) : Phase :=
  failed row.place row.line
    ((Envelope.make 500 ("failed to " ++ what ++ " transaction: " ++ m) "TRANSACTION_FAILED").withData row.value)

-- The envelope of a row that was rolled back; it carries the row unless it has data of its own.
def rolledBack (row : GoodRow) (e : Envelope) : Phase :=
  failed row.place row.line (match e.data with
    | some _ => e
    | none => e.withData row.value)

end Phase

structure Worked (σ : Type) where
  phase : Phase
  outside : σ
  made : SeamCall
  logs : List LogEvent

namespace Worked

def warning (span : Option Span) (worker line : Nat) (message name text : String) : LogEvent :=
  ⟨.warn,message,[("worker",.nat worker),("line",.nat line),(name,.string text)],span⟩

-- The next call of a worker that has one to make. A panic outside of processing ends the worker.
def call (seam : Seam σ) (ctx : Context) (span : Option Span) (worker : Nat) (s : σ) : Phase → Option (Worked σ)
  | .beginning row =>
    let (r,s) := seam.begin s
    let call : SeamCall := ⟨row.place,worker,.begun r⟩
    some (match r with
      | .returned tx => ⟨.processing row tx,s,call,[]⟩
      | .failed m =>
        ⟨Phase.transactionFailed "begin" row m,s,call,
          [warning span worker row.line "failed to begin transaction" "error" m]⟩
      | .panicked m => ⟨.dead row.place m,s,call,[]⟩)
  | .processing row tx =>
    let (r,s) := seam.process ctx row.datum tx worker s
    let call : SeamCall := ⟨row.place,worker,.processed ctx row.datum tx r⟩
    some (match r with
      | .accepted => ⟨.committing row tx,s,call,[]⟩
      | .refused f => ⟨.rollingBack row tx f.toEnvelope,s,call,[]⟩
      | .panicked m =>
        ⟨.rollingBack row tx (.internal ("row processor panicked: " ++ m)),s,call,
          [warning span worker row.line "row processor panicked" "panic" m]⟩)
  | .committing row tx =>
    let (r,s) := seam.commit tx s
    let call : SeamCall := ⟨row.place,worker,.committed tx r⟩
    some (match r with
      | .returned _ => ⟨.reporting ⟨row.place,row.line,none⟩,s,call,[]⟩
      | .failed m =>
        ⟨Phase.transactionFailed "commit" row m,s,call,
          [warning span worker row.line "failed to commit transaction" "error" m]⟩
      | .panicked m => ⟨.dead row.place m,s,call,[]⟩)
  | .rollingBack row tx e =>
    let (r,s) := seam.rollback tx s
    let call : SeamCall := ⟨row.place,worker,.rolledBack tx r⟩
    some (match r with
      | .returned _ => ⟨Phase.rolledBack row e,s,call,[]⟩
      | .failed m =>
        ⟨Phase.rolledBack row e,s,call,
          [warning span worker row.line "failed to roll back transaction" "error" m]⟩
      | .panicked m => ⟨.dead row.place m,s,call,[]⟩)
  | _ => none

end Worked
end ServiceKit.Import
