import ServiceKit.Import.Decoder

namespace ServiceKit.Import

namespace Row

def isBlank (header cells : List String) : Bool := (named header cells).all fun p => Text.allBlank p.2

theorem isSome_build (line : Nat) (header cells : List String) :
    (build line header cells).isSome = !isBlank header cells := by
  unfold build isBlank
  dsimp only
  split
  · next blank => rw [blank]; rfl
  · next said => simp [said]

theorem length_buildAll (header : List String) (line : Nat) (lines : List (List String)) :
    (buildAll header line lines).length = lines.countP fun cells => !isBlank header cells := by
  induction lines generalizing line with
  | nil => rfl
  | cons cells rest ih =>
    rw [buildAll,List.length_append,ih,List.countP_cons,← isSome_build line]
    cases build line header cells <;> simp [Nat.add_comm]

end Row

-- A file as a table: the header, the records after it up to the first that cannot be read, and its error.
structure Table where
  header : List String
  lines : List (List String)
  failure : Option ImportError

namespace Table

def dataRows (t : Table) : Nat := t.lines.countP fun cells => !Row.isBlank t.header cells

def rows (t : Table) : List RawRow := Row.buildAll t.header 2 t.lines

theorem length_rows (t : Table) : t.rows.length = t.dataRows := Row.length_buildAll _ _ _

def readable : List Csv.Record → List (List String) × Option ImportError
  | [] => ([],none)
  | r :: rest =>
    match r.texts with
    | .error e => ([],some e)
    | .ok cells => (cells :: (readable rest).1,(readable rest).2)

def ofCsv (bs : Text.Bytes) : Except ImportError Table :=
  match Csv.records bs with
  | [] => .error .missingHeader
  | first :: rest => first.texts.map fun cells => ⟨Row.header cells,(readable rest).1,(readable rest).2⟩

def ofBook (sheet : Option String) (r : Except Fault Book) : Except ImportError Table :=
  match Book.opened sheet r with
  | .error e => .error e
  | .ok [] => .error .missingHeader
  | .ok (header :: lines) => .ok ⟨Row.header header,lines,none⟩

def ofFile (d : Decoder) (kind : FileKind) (sheet : Option String) (bs : Text.Bytes) : Except ImportError Table :=
  match kind with
  | .csv => ofCsv bs
  | .xlsx => ofBook sheet (d.xlsx bs)
  | .xls => ofBook sheet (d.xls bs)

theorem csvRows_readable (header : List String) (line : Nat) (rs : List Csv.Record) :
    RowSource.csvRows header line rs = ⟨Row.buildAll header line (readable rs).1,(readable rs).2⟩ := by
  induction rs generalizing line with
  | nil => rfl
  | cons r rest ih =>
    rw [RowSource.csvRows,readable]
    cases r.texts with
    | error e => rfl
    | ok cells => simp only [ih,Row.buildAll]

theorem ofBook_table (sheet : Option String) (r : Except Fault Book) :
    RowSource.ofBook sheet r =
      match ofBook sheet r with
      | .error e => .failed e
      | .ok t => ⟨t.rows,t.failure⟩ := by
  unfold RowSource.ofBook ofBook
  rcases Book.opened sheet r with _ | _ | _ <;> rfl

theorem whole_of_book {t : Table} (table : ofBook sheet r = .ok t) : t.failure = none := by
  unfold ofBook at table
  split at table <;> cases table
  rfl

theorem ofFile_table (d : Decoder) (kind : FileKind) (sheet : Option String) (bs : Text.Bytes) :
    RowSource.ofFile d kind sheet bs =
      match ofFile d kind sheet bs with
      | .error e => .failed e
      | .ok t => ⟨t.rows,t.failure⟩ := by
  cases kind with
  | xls | xlsx => exact ofBook_table sheet _
  | csv =>
    unfold RowSource.ofFile ofFile RowSource.ofCsv ofCsv
    dsimp only
    cases Csv.records bs with
    | nil => rfl
    | cons first rest =>
      dsimp only
      cases first.texts with
      | error e => rfl
      | ok cells => exact csvRows_readable _ _ _

variable {d : Decoder} {kind : FileKind} {sheet : Option String} {bs : Text.Bytes} {e : ImportError}

theorem rows_of_read (read : (RowSource.ofFile d kind sheet bs).failure = none) :
    ∃ t, ofFile d kind sheet bs = .ok t ∧ t.failure = none ∧ (RowSource.ofFile d kind sheet bs).rows = t.rows := by
  rw [ofFile_table] at read ⊢
  cases table : ofFile d kind sheet bs with
  | error e => rw [table] at read; cases read
  | ok t => rw [table] at read; exact ⟨t,rfl,read,rfl⟩

-- A file that stops its reader after some rows has records separated by commas.
theorem rows_of_stopped {raw : RawRow} (stopped : (RowSource.ofFile d kind sheet bs).failure = some e)
    (found : raw ∈ (RowSource.ofFile d kind sheet bs).rows) :
    kind = .csv ∧ ∃ t, ofCsv bs = .ok t ∧ t.failure = some e ∧ (RowSource.ofFile d kind sheet bs).rows = t.rows := by
  rw [ofFile_table] at stopped found ⊢
  cases table : ofFile d kind sheet bs with
  | error _ => rw [table] at found; cases found
  | ok t =>
    rw [table] at stopped
    cases kind with
    | csv => exact ⟨rfl,t,table,stopped,rfl⟩
    | xls | xlsx => cases (whole_of_book table).symm.trans stopped

end Table
end ServiceKit.Import
