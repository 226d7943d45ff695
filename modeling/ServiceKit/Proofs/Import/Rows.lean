import ServiceKit.Import.Reader
import ServiceKit.Proofs.Import.Reading
import ServiceKit.Proofs.Keyed
import ServiceKit.Proofs.Text.Bytes

namespace ServiceKit.Import
namespace Row

inductive Under (header cells : List String) (name : String) : String → Prop where
  | last (i : Nat) (named : header[i]? = some name) (cell : cells[i]? = some text)
      (later : ∀ j > i, header[j]? = some name → cells[j]? = none) : Under header cells name text
  | unreached (short : ∀ i : Nat, header[i]? = some name → cells[i]? = none) : Under header cells name ""

variable {header cells : List String} {name : String} {line : Nat} {row : RawRow} {ms : Members}
  {pairs : List (String × String)}

theorem mem_zip_iff {e : String × String} :
    e ∈ header.zip cells ↔ ∃ i : Nat, header[i]? = some e.1 ∧ cells[i]? = some e.2 := by
  rw [List.mem_iff_getElem?]
  exact exists_congr fun i => List.getElem?_zip_eq_some

def lastOf (name : String) (pairs : List (String × String)) : Option String :=
  (pairs.reverse.find? fun e => e.1 == name).map (·.2)

theorem lastOf_cons (name : String) (e : String × String) (rest : List (String × String)) :
    lastOf name (e :: rest) = (lastOf name rest).or (if e.1 = name then some e.2 else none) := by
  unfold lastOf
  rw [List.reverse_cons,List.find?_append,Option.map_or]
  by_cases same : e.1 = name <;> simp [same]

theorem lastOf_named (said : name ≠ "") : lastOf name (named header cells) = lastOf name (header.zip cells) := by
  have same : (fun e : String × String => decide ((!e.1.isEmpty) = true ∧ (e.1 == name) = true)) =
      fun e => e.1 == name := by
    funext e
    by_cases same : e.1 = name <;> simp [same,said]
  rw [lastOf,lastOf,named,← List.filter_reverse,List.find?_filter,same]

theorem lastOf_under (header cells : List String) (name : String) :
    Under header cells name ((lastOf name (header.zip cells)).getD "") := by
  unfold lastOf
  cases found : (header.zip cells).reverse.find? fun e => e.1 == name with
  | none =>
    refine .unreached fun i named => ?_
    cases cell : cells[i]? with
    | none => rfl
    | some text =>
      have listed : (name,text) ∈ (header.zip cells).reverse := List.mem_reverse.mpr (mem_zip_iff.mpr ⟨i,named,cell⟩)
      exact absurd (List.find?_eq_none.mp found _ listed) (by simp)
  | some e =>
    obtain ⟨same,later,before,split,none⟩ := List.find?_eq_some_iff_append.mp found
    cases eq_of_beq same
    have whole : header.zip cells = before.reverse ++ e :: later.reverse := by
      rw [← List.reverse_inj,split]
      simp
    have place : (header.zip cells)[before.reverse.length]? = some e := by
      rw [whole,List.getElem?_append_right (Nat.le_refl _),Nat.sub_self]
      rfl
    obtain ⟨named,cell⟩ := List.getElem?_zip_eq_some.mp place
    refine .last before.reverse.length named cell ?_
    intro j after under
    cases cell : cells[j]? with
    | none => rfl
    | some text =>
      have listed : (header.zip cells)[j]? = some (e.1,text) := List.getElem?_zip_eq_some.mpr ⟨under,cell⟩
      obtain ⟨k,rfl⟩ := Nat.exists_eq_add_of_lt after
      rw [whole,List.getElem?_append_right (by omega),show before.reverse.length + k + 1 - before.reverse.length = k + 1 by omega,
        List.getElem?_cons_succ] at listed
      have inside := List.mem_reverse.mp (List.mem_of_getElem? listed)
      simpa using none _ inside

theorem sorted_put (sorted : Keyed.Sorted ms) (e : String × String) : Keyed.Sorted (put ms e) :=
  (Members.puts_insert e.1 (.string e.2)).sorted sorted

theorem sorted_fill (sorted : Keyed.Sorted ms) (name : String) : Keyed.Sorted (fill ms name) := by
  unfold fill
  split
  · exact (Members.puts_insert name (.string "")).sorted sorted
  · exact sorted

theorem foldl_sorted {α : Type} {add : Members → α → Members} (kept : ∀ {ms}, Keyed.Sorted ms → ∀ a, Keyed.Sorted (add ms a))
    (sorted : Keyed.Sorted ms) (more : List α) : Keyed.Sorted (more.foldl add ms) := by
  induction more generalizing ms with
  | nil => exact sorted
  | cons a more ih => exact ih (kept sorted a)

theorem get?_puts (name : String) (pairs : List (String × String)) (ms : Members) :
    (pairs.foldl put ms).get? name = ((lastOf name pairs).map Json.string).or (ms.get? name) := by
  induction pairs generalizing ms with
  | nil => rfl
  | cons e rest ih =>
    rw [List.foldl_cons,ih,lastOf_cons,put]
    by_cases same : e.1 = name
    · rw [if_pos same,← same,Members.get?_insert_same]
      cases lastOf e.1 rest <;> rfl
    · rw [if_neg same,Members.get?_insert_other same,Option.or_none]

theorem get?_fills (name : String) (names : List String) (ms : Members) :
    (names.foldl fill ms).get? name = (ms.get? name).or (if name ∈ names then some (.string "") else none) := by
  induction names generalizing ms with
  | nil => simp
  | cons first rest ih =>
    rw [List.foldl_cons,ih,fill]
    by_cases same : first = name
    · subst same
      cases there : ms.get? first with
      | none => simp [Members.get?_insert_same]
      | some value => simp [there]
    · have other : name ≠ first := Ne.symm same
      split
      · rw [Members.get?_insert_other same]
        simp [other]
      · simp [other]

def members (header cells : List String) : Members :=
  (header.filter fun n => !n.isEmpty).foldl fill ((named header cells).foldl put [])

theorem sorted_members (header cells : List String) : Keyed.Sorted (members header cells) :=
  foldl_sorted sorted_fill (foldl_sorted sorted_put .nil _) _

theorem get?_members (header cells : List String) (name : String) : (members header cells).get? name =
    if name ∈ header ∧ name ≠ "" then some (.string ((lastOf name (header.zip cells)).getD "")) else none := by
  rw [members,get?_fills,get?_puts]
  by_cases said : name = ""
  · have absent : lastOf name (named header cells) = none := by
      rw [said,lastOf,named,← List.filter_reverse,List.find?_filter]
      simp
    rw [absent]
    simp [said,Members.get?]
  · rw [lastOf_named said]
    cases found : lastOf name (header.zip cells) with
    | none => simp [said,Members.get?]
    | some text =>
      obtain ⟨e,last,rfl⟩ := Option.map_eq_some_iff.mp found
      have same : e.1 = name := by simpa using List.find?_some last
      have inside : name ∈ header := by
        rw [← same]
        exact (List.of_mem_zip (List.mem_reverse.mp (List.mem_of_find?_eq_some last))).1
      simp [inside,said]

def Silent (header cells : List String) : Prop :=
  ∀ (i : Nat) name text, header[i]? = some name → name ≠ "" → cells[i]? = some text → ∀ c ∈ text.toList, Text.isBlank c = true

theorem build_eq (line : Nat) (header cells : List String) :
    build line header cells = if isBlank header cells then none else some ⟨line,members header cells⟩ := rfl

theorem isBlank_iff : isBlank header cells = true ↔ Silent header cells := by
  simp only [isBlank,List.all_eq_true,named,List.mem_filter,mem_zip_iff,Text.allBlank]
  constructor
  · intro all i name text under said cell
    exact all (name,text) ⟨⟨i,under,cell⟩,by simpa using said⟩
  · rintro silent e ⟨⟨i,under,cell⟩,said⟩
    exact silent i e.1 e.2 under (by simpa using said) cell

theorem build_none_iff : build line header cells = none ↔ Silent header cells := by
  rw [← isBlank_iff,build_eq]
  simp

structure Holds (header cells : List String) (line : Nat) (row : RawRow) : Prop where
  line : row.line = line
  once : (row.fields.map (·.1)).Nodup
  keys : ∀ name, name ∈ row.fields.map (·.1) ↔ name ∈ header ∧ name ≠ ""
  values : ∀ name value, (name,value) ∈ row.fields → ∃ text, value = .string text ∧ Under header cells name text

theorem build_holds (built : build line header cells = some row) : Holds header cells line row := by
  rw [build_eq] at built
  split at built
  · cases built
  cases built
  have sorted := sorted_members header cells
  have found (name : String) : Keyed.get? name (members header cells) = _ := get?_members header cells name
  refine ⟨rfl,sorted.nodup,?_,?_⟩
  · intro name
    rw [Keyed.mem_keys_iff,found]
    split <;> simp [*]
  · intro name value member
    have held := Keyed.get?_of_mem sorted member
    rw [found] at held
    split at held
    · exact ⟨_,(Option.some.inj held).symm,lastOf_under header cells name⟩
    · cases held

example : build 2 ["sku","","sku","name"] ["A","x","B"] = some ⟨2,[("name",.string ""),("sku",.string "B")]⟩ := by
  decide +kernel

theorem trim_eq_empty_iff (name : String) : Text.trim name = "" ↔ ∀ c ∈ name.toList, Text.isBlank c = true := by
  rw [← String.isEmpty_iff,Text.trim_isEmpty,Text.allBlank,List.all_eq_true]

end Row

namespace Reader
variable {header : List String} {line count : Nat} {records : List (List String)}

theorem buildAll_eq (header : List String) (line : Nat) (records : List (List String)) :
    Row.buildAll header line records = (records.zipIdx line).filterMap fun r => Row.build r.2 header r.1 := by
  induction records generalizing line with
  | nil => rfl
  | cons cells rest ih =>
    rw [Row.buildAll,ih,List.zipIdx_cons,List.filterMap_cons]
    cases Row.build line header cells <;> rfl

-- A reader sends the rows of its records one after another, up to the first that nobody receives.
structure Sends (receives : Receiver) (count : Nat) (rows : List RawRow) (r : Reading) (many : Nat) : Prop where
  within : many ≤ rows.length
  sent : r.sent = rows.take many
  result : r.result = .ok (count + many)
  received : ∀ n < many, receives (count + n) = true
  stopped : many < rows.length → receives (count + many) = false

theorem feed_sends (receives : Receiver) (header : List String) (line count : Nat) (records : List (List String)) :
    ∃ many, Sends receives count (Row.buildAll header line records)
      (feed receives header line count (records.map .ok)) many := by
  induction records generalizing line count with
  | nil => exact ⟨0,Nat.le_refl 0,rfl,rfl,by simp,by simp [Row.buildAll]⟩
  | cons cells rest ih =>
    rw [List.map_cons,feed,Row.buildAll]
    cases Row.build line header cells with
    | none => exact ih (line + 1) count
    | some row =>
      cases open_ : receives count with
      | false => exact ⟨0,by simp,rfl,rfl,by simp,fun _ => open_⟩
      | true =>
        obtain ⟨many,within,taken,result,received,stopped⟩ := ih (line + 1) (count + 1)
        refine ⟨many + 1,by simpa using within,?_,?_,?_,?_⟩
        · simp [taken]
        · simp [result,Nat.add_assoc,Nat.add_comm 1]
        · intro n less
          cases n with
          | zero => exact open_
          | succ n => simpa [Nat.add_assoc,Nat.add_comm 1] using received n (Nat.lt_of_succ_lt_succ less)
        · intro less
          have less : many < (Row.buildAll header (line + 1) rest).length := by simpa using less
          simpa [Nat.add_assoc,Nat.add_comm 1] using stopped less

theorem Sends.all {receives : Receiver} {rows : List RawRow} {r : Reading} {many : Nat}
    (sends : Sends receives 0 rows r many) (open_ : ∀ n < rows.length, receives n = true) :
    r = ⟨rows,.ok rows.length⟩ := by
  have every : many = rows.length := by
    refine Nat.le_antisymm sends.within (Nat.le_of_not_lt fun less => ?_)
    have closed := sends.stopped less
    rw [Nat.zero_add,open_ many less] at closed
    cases closed
  obtain ⟨sent,result⟩ := r
  have taken : sent = rows.take many := sends.sent
  have counted : result = .ok (0 + many) := sends.result
  rw [taken,counted,every,List.take_length,Nat.zero_add]

theorem feed_source {receives : Receiver} (open_ : ∀ n, receives n = true) (header : List String) (line count : Nat)
    (rs : List Csv.Record) :
    (feed receives header line count (rs.map Csv.Record.texts)).source = RowSource.csvRows header line rs := by
  induction rs generalizing line count with
  | nil => rfl
  | cons r rest ih =>
    rw [List.map_cons,RowSource.csvRows]
    cases r.texts with
    | error e => rfl
    | ok cells =>
      rw [feed]
      dsimp only
      cases Row.build line header cells with
      | none =>
        rw [← ih (line + 1) count]
        rfl
      | some row =>
        dsimp only
        rw [if_pos (open_ count),← ih (line + 1) (count + 1)]
        rfl

theorem run_source {receives : Receiver} (open_ : ∀ n, receives n = true) (d : Decoder) (kind : FileKind)
    (sheet : Option String) (bs : Text.Bytes) :
    (run receives d kind sheet bs).source = RowSource.ofFile d kind sheet bs := by
  cases kind with
  | csv =>
    have opened : run receives d .csv sheet bs = read receives ((Csv.records bs).map Csv.Record.texts) := rfl
    rw [opened,RowSource.ofFile,RowSource.ofCsv]
    cases Csv.records bs with
    | nil => rfl
    | cons first rest =>
      have headed : read receives ((first :: rest).map Csv.Record.texts) =
        read receives (first.texts :: rest.map Csv.Record.texts) := rfl
      rw [headed]
      dsimp only
      cases first.texts with
      | error e => rfl
      | ok cells => exact feed_source open_ _ _ _ _
  | xlsx | xls =>
    rw [run,lines,RowSource.ofFile,RowSource.ofBook]
    cases Book.opened sheet _ with
    | error e => rfl
    | ok lines =>
      cases lines with
      | nil => rfl
      | cons header lines =>
        obtain ⟨_,sends⟩ := feed_sends receives (Row.header header) 2 0 lines
        show (feed receives (Row.header header) 2 0 (lines.map .ok)).source = _
        rw [sends.all fun n _ => open_ n]
        rfl

-- What a reader makes of records. A record gives no row just when it says nothing under a name, and otherwise one with
-- an entry for each name; names count as blank that were white space. A reader sends the rows of its records in their
-- order, all of them if they are received and else those before the first that is not, and returns how many; and
-- so it does with a file.
theorem read_rows :
    (∀ line header cells, (Row.build line header cells = none ↔ Row.Silent header cells) ∧
      ∀ row, Row.build line header cells = some row → Row.Holds header cells line row) ∧
    (∀ (raw : List String) (i : Nat), (Row.header raw)[i]? = raw[i]?.map Text.trim) ∧
    (∀ name, Text.trim name = "" ↔ ∀ c ∈ name.toList, Text.isBlank c = true) ∧
    (∀ receives (raw : List String) (records : List (List String)),
      let rows := (records.zipIdx 2).filterMap fun r => Row.build r.2 (Row.header raw) r.1
      (∃ many, Sends receives 0 rows (read receives (.ok raw :: records.map .ok)) many) ∧
        ((∀ n < rows.length, receives n = true) →
          read receives (.ok raw :: records.map .ok) = ⟨rows,.ok rows.length⟩)) ∧
    ∀ receives d kind sheet bs, (∀ n, receives n = true) →
      (run receives d kind sheet bs).source = RowSource.ofFile d kind sheet bs := by
  refine ⟨?_,?_,Row.trim_eq_empty_iff,?_,fun _ d kind sheet bs open_ => run_source open_ d kind sheet bs⟩
  · intro line header cells
    exact ⟨Row.build_none_iff,fun row => Row.build_holds⟩
  · intro raw i
    exact List.getElem?_map
  · intro receives raw records rows
    obtain ⟨many,sends⟩ := feed_sends receives (Row.header raw) 2 0 records
    rw [buildAll_eq] at sends
    exact ⟨⟨many,sends⟩,sends.all⟩

end Reader
end ServiceKit.Import
