import Mathlib.Algebra.Ring.Nat
import Mathlib.Data.List.Forall2
import Mathlib.Tactic.SplitIfs
import ServiceKit.Import.Csv

namespace ServiceKit.Import.Csv
open Text (Bytes)

def breaksAfter (returned : Bool) : Bytes → Nat
  | [] => 0
  | b :: bs => (if b = carriage ∨ (b = feed ∧ returned = false) then 1 else 0) + breaksAfter (b == carriage) bs

def lineBreaks (bs : Bytes) : Nat := breaksAfter false bs

def returns (returned : Bool) (bs : Bytes) : Bool := bs.foldl (fun _ b => b == carriage) returned

theorem breaksAfter_cons (returned : Bool) (b : UInt8) (bs : Bytes) :
    breaksAfter returned (b :: bs) = breaksAfter returned [b] + breaksAfter (b == carriage) bs := by
  rw [breaksAfter,breaksAfter,breaksAfter,Nat.add_zero]

theorem breaksAfter_append (returned : Bool) (as bs : Bytes) :
    breaksAfter returned (as ++ bs) = breaksAfter returned as + breaksAfter (returns returned as) bs := by
  induction as generalizing returned with
  | nil => simp [breaksAfter,returns]
  | cons a as ih =>
    rw [List.cons_append,breaksAfter,ih,breaksAfter,Nat.add_assoc]
    rfl

theorem breaksAfter_other (other : ends b = false) (returned : Bool) (bs : Bytes) :
    breaksAfter returned (b :: bs) = lineBreaks bs := by
  simp only [ends,Bool.or_eq_false_iff,beq_eq_false_iff_ne] at other
  have passed : (b == carriage) = false := by simp [other.2]
  simp [breaksAfter,lineBreaks,other,passed]

theorem lineBreaks_other (other : ends b = false) (bs : Bytes) : lineBreaks (b :: bs) = lineBreaks bs :=
  breaksAfter_other other false bs

theorem lineBreaks_end (end_ : ends b = true) (bs : Bytes) : 0 < lineBreaks (b :: bs) := by
  simp only [ends,Bool.or_eq_true,beq_iff_eq] at end_
  rw [lineBreaks,breaksAfter,if_pos (end_.symm.imp id fun feed => ⟨feed,rfl⟩)]
  omega

theorem lineBreaks_reverse (b : UInt8) (field : Bytes) : lineBreaks (b :: field).reverse =
    lineBreaks field.reverse + breaksAfter (field.head? == some carriage) [b] := by
  have last : returns false field.reverse = (field.head? == some carriage) := by
    cases field with
    | nil => rfl
    | cons a field => simp [returns]
  rw [List.reverse_cons,lineBreaks,breaksAfter_append,last]
  rfl

example : lineBreaks [carriage,feed,feed,carriage] = 3 := by decide

structure Stretch where
  text : Bytes
  gap : Bytes
deriving DecidableEq, Repr

def Stretch.bytes (st : Stretch) : Bytes := st.text ++ st.gap

namespace State

def idle (s : State) : Bool := s.mode == .recordStart || s.mode == .afterReturn

-- What is left of the record under way, and the records that begin later. A record begins with the byte that the reader
-- leaves its rest for, and is over with the byte that brings the reader back to it.
def cut (s : State) : Bytes → Stretch × List Stretch
  | [] => (⟨[],[]⟩,[])
  | b :: bs =>
    let rest := (s.step b).2.cut bs
    if (s.step b).2.idle then (⟨rest.1.text,b :: rest.1.gap⟩,rest.2)
    else if s.idle then (⟨[],[]⟩,⟨b :: rest.1.text,rest.1.gap⟩ :: rest.2)
    else (⟨b :: rest.1.text,rest.1.gap⟩,rest.2)

end State

def unmarked : Bytes → Bytes
  | 0xEF :: 0xBB :: 0xBF :: rest => rest
  | bs => bs

def front (bs : Bytes) : Bytes := ((State.initial 0).cut (unmarked bs)).1.gap

def stretches (bs : Bytes) : List Stretch := ((State.initial 0).cut (unmarked bs)).2

def startLine (bs : Bytes) (i : Nat) : Nat := 1 + lineBreaks (((stretches bs).take i).flatMap Stretch.bytes)

namespace State

@[simp] theorem pass_mode (s : State) (b : UInt8) : (s.pass b).mode = s.mode := rfl
@[simp] theorem pass_field (s : State) (b : UInt8) : (s.pass b).field = s.field := rfl
@[simp] theorem pass_fields (s : State) (b : UInt8) : (s.pass b).fields = s.fields := rfl

def opens (s : State) : Bool := s.idle || s.mode == .fieldStart

theorem idle_iff {s : State} : s.idle = true ↔ s.mode = .recordStart ∨ s.mode = .afterReturn := by simp [idle]

theorem opens_outside {s : State} (opens : s.opens = true) : s.mode ≠ .quoted := by
  intro mode
  simp [State.opens,idle,mode] at opens

inductive Turn (s : State) (b : UInt8) : Option Record × State → Prop where
  | skip (idle : s.idle = true) (end_ : ends b = true) : Turn s b (none,{ s.pass b with mode := .recordStart })
  | open_ (opens : s.opens = true) (is : b = quote) : Turn s b (none,{ s.pass b with mode := .quoted })
  | next (outside : s.mode ≠ .quoted) (is : b = comma) : Turn s b (none,(s.pass b).endField)
  | close (busy : s.idle = false) (outside : s.mode ≠ .quoted) (end_ : ends b = true) : Turn s b ((s.pass b).close b)
  | bare (outside : s.mode ≠ .quoted) (other : ends b = false) : Turn s b (none,(s.pass b).copy b .bare)
  | inside (quoted : s.mode = .quoted) : Turn s b (none,(s.pass b).copy b .quoted)
  | leave (quoted : s.mode = .quoted) (is : b = quote) : Turn s b (none,{ s.pass b with mode := .quoteSeen })
  | twice (seen : s.mode = .quoteSeen) (is : b = quote) : Turn s b (none,(s.pass b).copy b .quoted)

theorem atField_turn {s : State} {b : UInt8} (opens : s.opens = true) (apart : s.idle = true → ends b = false) :
    Turn s b ((s.pass b).atField b) := by
  have outside := opens_outside opens
  unfold atField
  split
  · next is => exact .open_ opens is
  · split
    · next is => exact .next outside is
    · split
      · next end_ =>
        refine .close ?_ outside end_
        cases resting : s.idle with
        | false => rfl
        | true => cases end_.symm.trans (apart resting)
      · next other => exact .bare outside (by simpa using other)

theorem inField_turn {s : State} {b : UInt8} (busy : s.idle = false) (outside : s.mode ≠ .quoted) :
    Turn s b ((s.pass b).inField b) := by
  unfold inField
  split
  · next is => exact .next outside is
  · split
    · next end_ => exact .close busy outside end_
    · next other => exact .bare outside (by simpa using other)

theorem atRecord_turn {s : State} {b : UInt8} (idle : s.idle = true) : Turn s b ((s.pass b).atRecord b) := by
  unfold atRecord
  split
  · next end_ => exact .skip idle end_
  · next other => exact atField_turn (by simp [opens,idle]) fun _ => by simpa using other

theorem step_turn (s : State) (b : UInt8) : Turn s b (s.step b) := by
  unfold step
  dsimp only [pass_mode]
  split
  · next mode => exact atRecord_turn (idle_iff.mpr (.inl mode))
  · next mode =>
    have idle : s.idle = true := idle_iff.mpr (.inr mode)
    split
    · next is => exact .skip idle (by simp [ends,is])
    · exact atRecord_turn idle
  · next mode => exact atField_turn (by simp [opens,mode]) (by simp [idle,mode])
  · next mode => exact inField_turn (by simp [idle,mode]) (by simp [mode])
  · next mode =>
    split
    · next is => exact .leave mode is
    · exact .inside mode
  · next mode =>
    split
    · next is => exact .twice mode is
    · exact inField_turn (by simp [idle,mode]) (by simp [mode])

structure Formed (s : State) : Prop where
  field : s.opens = true → s.field = []
  fields : s.idle = true → s.fields = []

theorem initial_formed (byte : Nat) : Formed (initial byte) := ⟨fun _ => rfl,fun _ => rfl⟩

theorem step_formed {s : State} (formed : Formed s) (b : UInt8) : Formed (s.step b).2 := by
  have turn := step_turn s b
  generalize s.step b = out at turn
  cases turn with
  | skip idle _ => exact ⟨fun _ => formed.field (by simp [opens,idle]),fun _ => formed.fields idle⟩
  | next _ _ => exact ⟨fun _ => rfl,by simp [idle,endField]⟩
  | close _ _ _ => exact ⟨fun _ => rfl,fun _ => rfl⟩
  | open_ _ _ | leave _ _ => exact ⟨by simp [opens,idle],by simp [idle]⟩
  | bare _ _ | inside _ | twice _ _ => exact ⟨by simp [opens,idle,copy],by simp [idle,copy]⟩

theorem step_idle {s : State} (idle : s.idle = true) (b : UInt8) :
    (s.step b).1 = none ∧ (s.step b).2.idle = ends b := by
  have turn := step_turn s b
  generalize s.step b = out at turn
  cases turn with
  | skip _ end_ => exact ⟨rfl,end_.symm⟩
  | open_ _ is | next _ is => subst is; exact ⟨rfl,rfl⟩
  | close busy _ _ => cases idle.symm.trans busy
  | bare _ other => exact ⟨rfl,other.symm⟩
  | inside quoted | leave quoted _ => simp [State.idle,quoted] at idle
  | twice seen _ => simp [State.idle,seen] at idle

theorem step_busy {s : State} (busy : s.idle = false) (b : UInt8) :
    ((s.step b).2.idle = false ∧ (s.step b).1 = none) ∨
      ((s.step b).2.idle = true ∧ s.mode ≠ .quoted ∧ ends b = true ∧ ∃ r, (s.step b).1 = some r ∧ r.fields = s.record.fields) := by
  have turn := step_turn s b
  generalize s.step b = out at turn
  cases turn with
  | skip idle _ => cases idle.symm.trans busy
  | close _ outside end_ =>
    refine .inr ⟨?_,outside,end_,_,rfl,rfl⟩
    simp only [close,idle]
    split <;> rfl
  | open_ _ _ | next _ _ | bare _ _ | inside _ | leave _ _ | twice _ _ => exact .inl ⟨rfl,rfl⟩

def parts (s : State) : Mode × Bytes × List Bytes := (s.mode,s.field,s.fields)

theorem step_parts {s t : State} (same : s.parts = t.parts) (b : UInt8) :
    (s.step b).1.map (·.fields) = (t.step b).1.map (·.fields) ∧ (s.step b).2.parts = (t.step b).2.parts := by
  obtain ⟨mode,field,fields,_,_,_⟩ := s
  obtain ⟨_,_,_,_,_,_⟩ := t
  cases same
  cases mode <;>
    simp only [step,pass,atRecord,atField,inField,close,endField,copy,record,parts] <;> split_ifs <;> exact ⟨rfl,rfl⟩

theorem step_first {s : State} (formed : Formed s) (idle : s.idle = true) (other : ends b = false) :
    (s.step b).2.parts = ((initial 0).step b).2.parts := by
  have cleared : ({ s with mode := .recordStart } : State).parts = (initial 0).parts := by
    simp [parts,initial,formed.field (by simp [opens,idle]),formed.fields idle]
  rw [← (step_parts cleared b).2]
  have notFeed : b ≠ feed := by
    rintro rfl
    cases other
  unfold step
  dsimp only [pass_mode]
  rcases idle_iff.mp idle with mode | mode <;>
    simp only [mode,if_neg notFeed,atRecord,other,Bool.false_eq_true,if_false,pass,atField,endField,copy,parts]

end State

def cellsFrom (s : State) (bs : Bytes) : List (List Bytes) := (recordsFrom s bs).map (·.fields)

theorem cellsFrom_cons (s : State) (b : UInt8) (bs : Bytes) :
    cellsFrom s (b :: bs) = ((s.step b).1.map (·.fields)).toList ++ cellsFrom (s.step b).2 bs := by
  rw [cellsFrom,recordsFrom]
  obtain ⟨record,next⟩ := s.step b
  cases record <;> rfl

theorem cellsFrom_parts {s t : State} (same : s.parts = t.parts) (bs : Bytes) : cellsFrom s bs = cellsFrom t bs := by
  induction bs generalizing s t with
  | nil =>
    obtain ⟨mode,field,fields,_,_,_⟩ := s
    obtain ⟨_,_,_,_,_,_⟩ := t
    cases same
    cases mode <;> rfl
  | cons b bs ih =>
    obtain ⟨out,parts⟩ := State.step_parts same b
    rw [cellsFrom_cons,cellsFrom_cons,out,ih parts]

theorem cells_records (bs : Bytes) : (records bs).map (·.fields) = cellsFrom (.initial 0) (unmarked bs) := by
  have marked : (State.initial 3).parts = (State.initial 0).parts := rfl
  unfold records
  split
  · next rest => exact cellsFrom_parts marked rest
  · next unmarked_ => rw [unmarked.eq_2 bs unmarked_]; rfl

def inside (cells : List Bytes) : Nat := (cells.map lineBreaks).sum

namespace State

def breaks (s : State) : Nat := inside s.fields + lineBreaks s.field.reverse

def returned (s : State) : Bool := s.mode == .quoted && s.field.head? == some carriage

theorem returned_outside {s : State} (outside : s.mode ≠ .quoted) : s.returned = false := by
  simp [returned,outside]

-- A byte of a record adds to the line breaks of its cells what it adds to those of the file.
theorem step_breaks {s : State} (formed : Formed s) (b : UInt8) (busy : (s.step b).2.idle = false) :
    (s.step b).2.breaks = s.breaks + breaksAfter s.returned [b] ∧ (s.step b).2.returned = (b == carriage) := by
  have turn := step_turn s b
  generalize s.step b = out at turn busy
  cases turn with
  | skip _ _ => cases busy
  | close _ _ _ =>
    simp only [close,idle] at busy
    split at busy <;> cases busy
  | open_ opens is =>
    subst is
    rw [returned_outside (opens_outside opens)]
    refine ⟨rfl,?_⟩
    simp only [returned,pass_field,formed.field opens]
    rfl
  | next outside is =>
    subst is
    rw [returned_outside outside]
    refine ⟨?_,rfl⟩
    simp only [breaks,endField,inside,pass_field,pass_fields,List.map_cons,List.sum_cons,List.reverse_nil]
    simp [lineBreaks,breaksAfter,comma,carriage,feed,Nat.add_comm]
  | bare outside other =>
    rw [returned_outside outside]
    simp only [breaks,copy,pass_field,pass_fields,lineBreaks_reverse]
    rw [breaksAfter_other other,breaksAfter_other other]
    simp only [ends,Bool.or_eq_false_iff] at other
    exact ⟨rfl,other.2.symm⟩
  | inside quoted =>
    simp only [breaks,copy,pass_field,pass_fields,lineBreaks_reverse,returned,quoted]
    simp [Nat.add_assoc]
  | leave quoted is =>
    subst is
    exact ⟨by rw [breaksAfter_other rfl]; rfl,rfl⟩
  | twice seen is =>
    subst is
    simp only [breaks,copy,pass_field,pass_fields,lineBreaks_reverse]
    rw [breaksAfter_other rfl,breaksAfter_other rfl]
    exact ⟨rfl,rfl⟩

end State

-- A stretch holds one record, which reads the same by itself; behind it are line ends, and its line breaks beside theirs
-- are in the record's cells.
structure Stretch.Holds (st : Stretch) (cells : List Bytes) : Prop where
  begins : ∃ b rest, st.text = b :: rest ∧ ends b = false
  gap : ∀ b ∈ st.gap, ends b = true
  alone : cellsFrom (.initial 0) st.text = [cells]
  lines : lineBreaks st.bytes = inside cells + lineBreaks st.gap

namespace State

structure Completes (s : State) (st : Stretch) (cells : List Bytes) : Prop where
  gap : ∀ b ∈ st.gap, ends b = true
  alone : cellsFrom s st.text = [cells]
  lines : s.breaks + breaksAfter s.returned st.bytes = inside cells + lineBreaks st.gap

-- How a file is cut up from a state on, with the cells that are read.
inductive Laid (s : State) : Stretch × List Stretch → List (List Bytes) → Prop where
  | between (idle : s.idle = true) (nothing : st.text = []) (gap : ∀ b ∈ st.gap, ends b = true)
      (later : List.Forall₂ Stretch.Holds sts rows) : Laid s (st,sts) rows
  | within (busy : s.idle = false) (rest : Completes s st cells)
      (later : List.Forall₂ Stretch.Holds sts rows) : Laid s (st,sts) (cells :: rows)

theorem finish_busy {s : State} (busy : s.idle = false) : cellsFrom s [] = [s.record.fields] := by
  rw [cellsFrom,recordsFrom,finish]
  split
  · next mode => cases busy.symm.trans (idle_iff.mpr (.inl mode))
  · next mode => cases busy.symm.trans (idle_iff.mpr (.inr mode))
  · rfl

theorem finish_idle {s : State} (idle : s.idle = true) : cellsFrom s [] = [] := by
  rcases idle_iff.mp idle with mode | mode <;> simp [cellsFrom,recordsFrom,finish,mode]

theorem record_breaks (s : State) : inside s.record.fields = s.breaks := by
  simp [inside,record,breaks]

theorem Completes.cons {s : State} {b : UInt8} {st : Stretch} (formed : Formed s) (silent : (s.step b).1 = none)
    (busy : (s.step b).2.idle = false) (completes : Completes (s.step b).2 st cells) :
    cellsFrom s (b :: st.text) = [cells] ∧
      s.breaks + breaksAfter s.returned (b :: st.bytes) = inside cells + lineBreaks st.gap := by
  obtain ⟨breaks,returned⟩ := step_breaks formed b busy
  constructor
  · rw [cellsFrom_cons,silent,completes.alone]
    rfl
  · rw [← completes.lines,breaks,returned,breaksAfter_cons,Nat.add_assoc]

theorem Completes.holds {s : State} {st : Stretch} (formed : Formed s) (idle : s.idle = true) (other : ends b = false)
    (completes : Completes (s.step b).2 st cells) : Stretch.Holds ⟨b :: st.text,st.gap⟩ cells := by
  have begun {s : State} (idle : s.idle = true) : (s.step b).1 = none ∧ (s.step b).2.idle = false := by
    rw [← other]
    exact step_idle idle b
  obtain ⟨_,lines⟩ := completes.cons formed (begun idle).1 (begun idle).2
  refine ⟨⟨b,st.text,rfl,other⟩,completes.gap,?_,?_⟩
  · rw [cellsFrom_cons,(begun rfl).1,cellsFrom_parts (step_first formed idle other).symm,completes.alone]
    rfl
  · have none : s.breaks = 0 := by
      rw [breaks,formed.fields idle,formed.field (by simp [opens,idle])]
      rfl
    rw [none,Nat.zero_add,breaksAfter_other other] at lines
    rw [← lines,Stretch.bytes,List.cons_append,lineBreaks_other other]
    rfl

-- By the bytes: each either goes on with what the rest of the file was laid out as, or begins a record in front of it.
theorem cut_laid {s : State} (formed : Formed s) (bs : Bytes) : Laid s (s.cut bs) (cellsFrom s bs) := by
  induction bs generalizing s with
  | nil =>
    cases idle : s.idle with
    | true =>
      rw [finish_idle idle]
      exact .between idle rfl (by simp) .nil
    | false =>
      rw [finish_busy idle]
      refine .within idle ⟨by simp,finish_busy idle,?_⟩ .nil
      rw [record_breaks]
      rfl
  | cons b bs ih =>
    have next := ih (step_formed formed b)
    rw [cellsFrom_cons,cut]
    generalize (s.step b).2.cut bs = rest at next
    generalize cellsFrom (s.step b).2 bs = rows at next
    cases idle : s.idle with
    | true =>
      obtain ⟨silent,resting⟩ := step_idle idle b
      rw [silent,resting]
      cases next with
      | between idle' nothing gap later =>
        have end_ : ends b = true := resting.symm.trans idle'
        rw [end_]
        exact .between idle nothing (by simpa [end_] using gap) later
      | within busy rest later =>
        have other : ends b = false := resting.symm.trans busy
        rw [other]
        exact .between idle rfl (by simp) (.cons (rest.holds formed idle other) later)
    | false =>
      rcases step_busy idle b with ⟨resting,silent⟩ | ⟨resting,outside,end_,r,out,fields⟩
      · rw [silent,resting]
        cases next with
        | between idle' _ _ _ => cases resting.symm.trans idle'
        | within _ rest later =>
          obtain ⟨alone,lines⟩ := rest.cons formed silent resting
          exact .within idle ⟨rest.gap,alone,lines⟩ later
      · rw [out,resting]
        cases next with
        | within busy _ _ => cases resting.symm.trans busy
        | between _ nothing gap later =>
          rw [Option.map_some,fields]
          dsimp only
          rw [nothing]
          refine .within idle ⟨by simpa [end_] using gap,finish_busy idle,?_⟩ later
          rw [record_breaks,returned_outside outside]
          rfl

theorem cut_whole (s : State) (bs : Bytes) :
    (s.idle = true → (s.cut bs).1.text = []) ∧ (s.cut bs).1.bytes ++ (s.cut bs).2.flatMap Stretch.bytes = bs := by
  induction bs generalizing s with
  | nil => exact ⟨fun _ => rfl,rfl⟩
  | cons b bs ih =>
    obtain ⟨nothing,whole⟩ := ih (s.step b).2
    rw [cut]
    split
    · next idle =>
      rw [Stretch.bytes,nothing idle] at whole
      exact ⟨fun _ => nothing idle,by simpa [Stretch.bytes,nothing idle] using whole⟩
    · split
      · exact ⟨fun _ => rfl,by simpa [Stretch.bytes] using whole⟩
      · next busy => exact ⟨fun idle => absurd idle busy,by simpa [Stretch.bytes] using whole⟩

theorem cut_apart (s : State) (bs : Bytes) : (s.idle = false → (s.cut bs).1.gap = [] → (s.cut bs).2 = []) ∧
    (s.cut bs).2.Pairwise fun st _ => st.gap ≠ [] := by
  induction bs generalizing s with
  | nil => exact ⟨fun _ _ => rfl,.nil⟩
  | cons b bs ih =>
    obtain ⟨none,apart⟩ := ih (s.step b).2
    rw [cut]
    split
    · exact ⟨fun _ nothing => (by cases nothing),apart⟩
    · next busy =>
      have busy : (s.step b).2.idle = false := by simpa using busy
      split
      · next idle =>
        refine ⟨fun busy => (by cases idle.symm.trans busy),.cons ?_ apart⟩
        intro st member nothing
        rw [none busy nothing] at member
        cases member
      · exact ⟨fun _ => none busy,apart⟩

end State

theorem layout_laid (bs : Bytes) :
    (∀ b ∈ front bs, ends b = true) ∧ List.Forall₂ Stretch.Holds (stretches bs) ((records bs).map (·.fields)) := by
  rw [cells_records,front,stretches]
  have laid := State.cut_laid (State.initial_formed 0) (unmarked bs)
  generalize (State.initial 0).cut (unmarked bs) = parts at laid
  generalize cellsFrom (State.initial 0) (unmarked bs) = rows at laid
  cases laid with
  | between _ _ gap later => exact ⟨gap,later⟩
  | within busy _ _ => cases busy

theorem layout_whole (bs : Bytes) : front bs ++ (stretches bs).flatMap Stretch.bytes = unmarked bs := by
  obtain ⟨nothing,whole⟩ := State.cut_whole (State.initial 0) (unmarked bs)
  rwa [Stretch.bytes,nothing rfl] at whole

theorem layout_apart (bs : Bytes) : (stretches bs).Pairwise fun st _ => st.gap ≠ [] :=
  (State.cut_apart (State.initial 0) (unmarked bs)).2

end ServiceKit.Import.Csv
