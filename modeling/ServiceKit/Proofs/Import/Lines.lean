import ServiceKit.Import.Workbook
import ServiceKit.Proofs.Import.Course
import ServiceKit.Proofs.Import.Layout
import ServiceKit.Proofs.Import.Rows

namespace ServiceKit.Import.Csv
open Text (Bytes)

-- What a record takes beside a line of its own: the line breaks in its cells, and the empty lines behind it.
def surplus (p : Stretch × List Bytes) : Nat := inside p.2 + (lineBreaks p.1.gap - 1)

def leading (bs : Bytes) (i : Nat) : List (Stretch × List Bytes) := ((stretches bs).zip ((records bs).map (·.fields))).take i

theorem Stretch.Holds.breaks {st : Stretch} (holds : st.Holds cells) (behind : st.gap ≠ []) :
    lineBreaks st.bytes = 1 + surplus (st,cells) := by
  have some : 0 < lineBreaks st.gap := by
    obtain ⟨b,rest,gap⟩ := List.exists_cons_of_ne_nil behind
    rw [gap]
    exact lineBreaks_end (holds.gap b (by simp [gap])) rest
  rw [holds.lines]
  dsimp only [surplus]
  omega

theorem lineBreaks_before (front : Bytes) (holds : List.Forall₂ Stretch.Holds sts rows) (k : Nat) :
    lineBreaks (front ++ (sts.take k).flatMap Stretch.bytes) =
      lineBreaks front + lineBreaks ((sts.take k).flatMap Stretch.bytes) := by
  rw [lineBreaks,breaksAfter_append]
  cases holds with
  | nil => simp [breaksAfter,lineBreaks]
  | cons first _ =>
    cases k with
    | zero => rfl
    | succ k =>
      obtain ⟨b,rest,text,other⟩ := first.begins
      rw [List.take_succ_cons,List.flatMap_cons,Stretch.bytes,text,List.cons_append,List.cons_append,
        breaksAfter_other other,lineBreaks_other other]
      rfl

theorem lineBreaks_take (holds : List.Forall₂ Stretch.Holds sts rows) (apart : sts.Pairwise fun st _ => st.gap ≠ [])
    (less : i < sts.length) :
    lineBreaks ((sts.take i).flatMap Stretch.bytes) = i + (((sts.zip rows).take i).map surplus).sum := by
  induction holds generalizing i with
  | nil => cases less
  | cons first later ih =>
    cases i with
    | zero => rfl
    | succ k =>
      obtain ⟨behind,apart⟩ := List.pairwise_cons.mp apart
      have less : k < _ := Nat.lt_of_succ_lt_succ less
      rw [List.take_succ_cons,List.flatMap_cons,lineBreaks_before _ later,ih apart less,
        first.breaks (behind _ (List.getElem_mem less)),List.zip_cons_cons,List.take_succ_cons,List.map_cons,List.sum_cons]
      omega

theorem startLine_eq (present : i < (records bs).length) : startLine bs i = i + 1 + ((leading bs i).map surplus).sum := by
  have holds := (layout_laid bs).2
  have less : i < (stretches bs).length := by simpa [holds.length_eq] using present
  rw [startLine,lineBreaks_take holds (layout_apart bs) less,leading]
  omega

theorem surplus_eq_zero {p : Stretch × List Bytes} :
    surplus p = 0 ↔ (∀ cell ∈ p.2, lineBreaks cell = 0) ∧ lineBreaks p.1.gap ≤ 1 := by
  rw [surplus,inside,Nat.add_eq_zero_iff,List.sum_eq_zero_iff_forall_eq_nat,Nat.sub_eq_zero_iff_le]
  simp

-- What a number is to the line on which a record starts. They are the same just if each record before is on one line and
-- no line behind it is empty.
structure Numbered (bs : Bytes) (i line : Nat) : Prop where
  counted : line = i + 1
  starts : startLine bs i = line + ((leading bs i).map surplus).sum
  agrees : line = startLine bs i ↔ ∀ p ∈ leading bs i, (∀ cell ∈ p.2, lineBreaks cell = 0) ∧ lineBreaks p.1.gap ≤ 1

theorem numbered (present : i < (records bs).length) : Numbered bs i (i + 1) := by
  have starts := startLine_eq present
  refine ⟨rfl,starts,?_⟩
  have none : ((leading bs i).map surplus).sum = 0 ↔
      ∀ p ∈ leading bs i, (∀ cell ∈ p.2, lineBreaks cell = 0) ∧ lineBreaks p.1.gap ≤ 1 := by
    rw [List.sum_eq_zero_iff_forall_eq_nat,List.forall_mem_map]
    exact forall₂_congr fun _ _ => surplus_eq_zero
  rw [← none,starts]
  omega

inductive BuiltOf (bs : Bytes) : Nat → RawRow → Prop where
  | record (headed : (records bs)[0]? = some first) (names : first.texts = .ok header)
      (present : (records bs)[i + 1]? = some r) (cells : r.texts = .ok texts)
      (built : Row.build (i + 2) (Row.header header) texts = some raw) : BuiltOf bs (i + 1) raw

theorem BuiltOf.numbered (of : BuiltOf bs i raw) : Numbered bs i raw.line := by
  obtain ⟨_,_,present,_,built⟩ := of
  rw [(Row.build_holds built).line]
  exact Csv.numbered (List.getElem?_eq_some_iff.mp present).1

theorem feed_built {receives : Reader.Receiver} {header : List String} {line count : Nat} {rs : List Record}
    (sent : raw ∈ (Reader.feed receives header line count (rs.map Record.texts)).sent) :
    ∃ k r texts, rs[k]? = some r ∧ r.texts = .ok texts ∧ Row.build (line + k) header texts = some raw := by
  induction rs generalizing line count with
  | nil => cases sent
  | cons r rest ih =>
    have later {count : Nat}
        (sent : raw ∈ (Reader.feed receives header (line + 1) count (rest.map Record.texts)).sent) :
        ∃ k r' texts, (r :: rest)[k]? = some r' ∧ r'.texts = .ok texts ∧ Row.build (line + k) header texts = some raw := by
      obtain ⟨k,r',texts,present,cells,built⟩ := ih sent
      exact ⟨k + 1,r',texts,present,cells,by rwa [Nat.add_assoc,Nat.add_comm 1] at built⟩
    rw [List.map_cons] at sent
    cases cells : r.texts with
    | error e =>
      rw [cells] at sent
      cases sent
    | ok texts =>
      rw [cells,Reader.feed] at sent
      cases built : Row.build line header texts with
      | none =>
        rw [built] at sent
        exact later sent
      | some row =>
        rw [built] at sent
        dsimp only at sent
        split at sent
        · rcases List.mem_cons.mp sent with rfl | more
          · exact ⟨0,r,texts,rfl,cells,built⟩
          · exact later more
        · cases sent

theorem run_built {receives : Reader.Receiver} {d : Decoder} {sheet : Option String}
    (sent : raw ∈ (Reader.run receives d .csv sheet bs).sent) : ∃ i, BuiltOf bs i raw := by
  have opened : Reader.run receives d .csv sheet bs = Reader.read receives ((records bs).map Record.texts) := rfl
  rw [opened] at sent
  cases all : records bs with
  | nil =>
    rw [all] at sent
    cases sent
  | cons first rest =>
    rw [all,List.map_cons] at sent
    cases names : first.texts with
    | error e =>
      rw [names] at sent
      cases sent
    | ok header =>
      rw [names,Reader.read] at sent
      obtain ⟨k,r,texts,present,cells,built⟩ := feed_built sent
      rw [Nat.add_comm] at built
      exact ⟨k + 1,.record (by rw [all]; rfl) names (by rw [all]; exact present) cells built⟩

-- The lines that the rows of a file are said to be on, and the outcomes made of them. A file is cut up into its records,
-- each with the line ends behind it; a row counts the records before its own, and is behind the line on which its record
-- starts by what those take beside a line each.
theorem run_numbered (bs : Bytes) :
    (front bs ++ (stretches bs).flatMap Stretch.bytes = unmarked bs ∧ (∀ b ∈ front bs, ends b = true) ∧
      List.Forall₂ Stretch.Holds (stretches bs) ((records bs).map (·.fields))) ∧
    (∀ receives d sheet, ∀ raw ∈ (Reader.run receives d .csv sheet bs).sent, ∃ i, BuiltOf bs i raw ∧ Numbered bs i raw.line) ∧
    ∀ {σ : Type} (p : Pool.Setting σ) outside s, Pool.Reached p (.start p (RowSource.ofCsv bs).rows outside) s →
      ∀ r ∈ s.outcomes ++ s.recorded, ∃ raw i, (RowSource.ofCsv bs).rows[r.place]? = some raw ∧ BuiltOf bs i raw ∧
        Numbered bs i r.outcome.line := by
  refine ⟨⟨layout_whole bs,layout_laid bs⟩,?_,?_⟩
  · intro receives d sheet raw sent
    obtain ⟨i,of⟩ := run_built sent
    exact ⟨i,of,of.numbered⟩
  · intro σ p outside s path r told
    obtain ⟨raw,present,course⟩ := (Pool.reached_followed path).told r told
    have all : (Reader.run (fun _ => true) Workbook.plain .csv none bs).source = RowSource.ofCsv bs :=
      Reader.run_source (fun _ => rfl) Workbook.plain .csv none bs
    have sent : raw ∈ (Reader.run (fun _ => true) Workbook.plain .csv none bs).sent := by
      rw [← all] at present
      exact List.mem_of_getElem? present
    obtain ⟨i,of⟩ := run_built sent
    exact ⟨raw,i,present,of,course.line ▸ of.numbered⟩

def gappedFile : Bytes := [110,97,109,101,44,97,103,101,10,10,65,44,49,10]

theorem gappedFile_behind : ∃ raw, (Reader.run (fun _ => true) Workbook.plain .csv none gappedFile).sent = [raw] ∧
    BuiltOf gappedFile 1 raw ∧ raw.line = 2 ∧ startLine gappedFile 1 = 3 := by
  have sent : (Reader.run (fun _ => true) Workbook.plain .csv none gappedFile).sent =
      [⟨2,[("age",.string "1"),("name",.string "A")]⟩] := by decide +kernel
  obtain ⟨i,of⟩ := run_built (sent ▸ List.mem_singleton.mpr rfl)
  have first : i = 1 := (Nat.succ.inj of.numbered.counted).symm
  subst first
  exact ⟨_,sent,of,rfl,by decide⟩

end ServiceKit.Import.Csv
