import Mathlib.Data.List.Infix
import ServiceKit.Form.Multipart
import ServiceKit.Proofs.Text.Bytes

namespace ServiceKit.Form.Multipart
open Text (Bytes)
variable {a b : UInt8} {pattern data rest bs boundary : Bytes}

theorem beginsWith_iff : beginsWith pattern bs = true ↔ pattern <+: bs := List.isPrefixOf_iff_prefix

theorem cutAt_here (starts : pattern <+: bs) : cutAt pattern bs = some ([],bs) := by
  cases bs with
  | nil => simp [cutAt,List.prefix_nil.mp starts]
  | cons b bs => rw [cutAt,if_pos (beginsWith_iff.mpr starts)]

theorem cutAt_next (other : ¬ pattern <+: b :: rest) : cutAt pattern (b :: rest) =
    (cutAt pattern rest).map fun (before,found) => (b :: before,found) := by
  rw [cutAt,if_neg (mt beginsWith_iff.mp other)]

theorem cutAt_skip (absent : a ∉ data) (rest : Bytes) : cutAt (a :: pattern) (data ++ rest) =
    (cutAt (a :: pattern) rest).map fun (before,found) => (data ++ before,found) := by
  induction data with
  | nil => simp
  | cons b data ih =>
    rw [List.mem_cons,not_or] at absent
    have other : ¬ a :: pattern <+: b :: (data ++ rest) := fun starts => absent.1 (List.cons_prefix_cons.mp starts).1
    rw [List.cons_append,cutAt_next other,ih absent.2,Option.map_map]
    rfl

-- A pattern whose first byte it does not repeat is found behind data that does not contain it: it cannot begin in the
-- data and end behind them.
theorem cutAt_append (apart : a ∉ pattern) (absent : ¬ a :: pattern <:+: data) (rest : Bytes) :
    cutAt (a :: pattern) (data ++ (a :: pattern ++ rest)) = some (data,a :: pattern ++ rest) := by
  induction data with
  | nil => exact cutAt_here (List.prefix_append _ _)
  | cons b data ih =>
    have other : ¬ a :: pattern <+: b :: (data ++ (a :: pattern ++ rest)) := by
      intro starts
      rcases List.prefix_or_prefix_of_prefix starts (List.prefix_append (b :: data) _) with inside | ⟨t,split⟩
      · exact absent inside.isInfix
      · rw [← split,← List.cons_append,List.prefix_append_right_inj] at starts
        cases t with
        | nil => exact absent (by rw [← split,List.append_nil])
        | cons c t =>
          have same : c = b := (List.cons_prefix_cons.mp starts).1
          obtain ⟨first,tail⟩ := List.cons.inj split
          refine apart ?_
          rw [← tail,← first,← same]
          simp
    rw [List.cons_append,cutAt_next other,ih fun within => absent (within.trans (List.suffix_cons b data).isInfix)]
    rfl

theorem cutAt_none (absent : ¬ pattern <:+: bs) : cutAt pattern bs = none := by
  induction bs with
  | nil =>
    have filled : pattern ≠ [] := fun none => absent (by rw [none])
    simp [cutAt,filled]
  | cons b bs ih =>
    rw [List.infix_cons_iff,not_or] at absent
    rw [cutAt_next absent.1,ih absent.2]
    rfl

def nameByte (b : UInt8) : Bool := decide (b < 128) && Http.isTokenChar (charOf b)

structure Line where
  name : Bytes
  value : Bytes
deriving DecidableEq, Repr

def Line.text (l : Line) : Bytes := l.name ++ 58 :: l.value

def Line.bytes (l : Line) : Bytes := l.text ++ crlf

structure Line.Sound (l : Line) : Prop where
  named : l.name ≠ []
  token : ∀ b ∈ l.name, nameByte b = true
  value : ∀ b ∈ l.value, valueByte b = true

def Line.put (headers : Headers) (l : Line) : Headers :=
  headers.set (Text.lowered (String.ofList (l.name.map charOf))) (trimBlanks l.value)

variable {l : Line} {lines : List Line} {headers : Headers} {fuel : Nat}

theorem nameByte_ne (named : nameByte b = true) : b ≠ 13 ∧ b ≠ 10 ∧ b ≠ 58 := by
  refine ⟨?_,?_,?_⟩ <;> rintro rfl <;> cases named

theorem valueByte_ne (visible : valueByte b = true) : b ≠ 13 ∧ lineEnd b = false := by
  have ends : b ≠ 13 ∧ b ≠ 10 := by
    constructor <;> rintro rfl <;> cases visible
  simp [lineEnd,ends.1,ends.2]

theorem Line.Sound.first (sound : l.Sound) : ∃ b more, l.text = b :: more ∧ b ≠ 13 ∧ b ≠ 10 := by
  obtain ⟨b,more,named⟩ := List.exists_cons_of_ne_nil sound.named
  have ⟨first,second,_⟩ := nameByte_ne (sound.token b (by simp [named]))
  exact ⟨b,more ++ 58 :: l.value,by rw [Line.text,named]; rfl,first,second⟩

theorem Line.Sound.open (sound : l.Sound) : 13 ∉ l.text := by
  rw [Line.text,List.mem_append,List.mem_cons]
  rintro (name | mark | value)
  · exact (nameByte_ne (sound.token _ name)).1 rfl
  · cases mark
  · exact (valueByte_ne (sound.value _ value)).1 rfl

theorem dropLineEnd_other {b : UInt8} (first : b ≠ 13) (second : b ≠ 10) (rest : Bytes) : dropLineEnd (b :: rest) = none := by
  unfold dropLineEnd
  split
  · next same => exact absurd (List.cons.inj same).1 first
  · next same => exact absurd (List.cons.inj same).1 second
  · rfl

theorem readHeaders_line (sound : l.Sound) (rest : Bytes) :
    readHeaders (fuel + 1) (l.bytes ++ rest) headers = readHeaders fuel rest (Line.put headers l) := by
  obtain ⟨b,more,text,first,second⟩ := sound.first
  have begun : dropLineEnd (l.bytes ++ rest) = none := by
    rw [Line.bytes,text]
    exact dropLineEnd_other first second _
  have whole : l.bytes ++ rest = l.name ++ 58 :: (l.value ++ 13 :: 10 :: rest) := by simp [Line.bytes,Line.text,crlf]
  have ⟨name,behind⟩ := whole ▸ Text.while_stops (l.value ++ 13 :: 10 :: rest) sound.token (x := 58) (by decide)
  have within : ∀ b ∈ l.value, (!lineEnd b) = true := fun b mem => by simp [(valueByte_ne (sound.value b mem)).2]
  have ⟨value,after⟩ := Text.while_stops (10 :: rest) within (x := 13) (by decide)
  have visible : l.value.all valueByte = true := List.all_eq_true.mpr sound.value
  have filled : l.name.isEmpty = false := List.isEmpty_eq_false_iff.mpr sound.named
  have ended : dropLineEnd (13 :: 10 :: rest) = some rest := rfl
  unfold nameByte at name behind
  rw [readHeaders]
  simp only [begun,name,behind,value,after,visible,filled,ended,Bool.not_true,Bool.false_eq_true,if_false]
  rfl

theorem readHeaders_lines (sound : ∀ l ∈ lines, l.Sound) (enough : lines.length < fuel) :
    readHeaders fuel (lines.flatMap Line.bytes ++ crlf) headers = some (lines.foldl Line.put headers) := by
  induction lines generalizing fuel headers with
  | nil =>
    obtain ⟨fuel,rfl⟩ := Nat.exists_eq_add_of_lt enough
    rfl
  | cons l lines ih =>
    obtain ⟨fuel,rfl⟩ : ∃ n, fuel = n + 1 := Nat.exists_eq_add_one_of_ne_zero (Nat.ne_zero_of_lt enough)
    rw [List.flatMap_cons,List.append_assoc,readHeaders_line (sound l List.mem_cons_self)]
    exact ih (fun l mem => sound l (List.mem_cons_of_mem _ mem)) (Nat.lt_of_succ_lt_succ enough)

-- No blank line begins inside a line, nor at its end if there is a line behind it.
theorem cutAt_text (within : 13 ∉ data) (rest : Bytes) : cutAt (crlf ++ crlf) (data ++ rest) =
    (cutAt (crlf ++ crlf) rest).map fun (before,found) => (data ++ before,found) := cutAt_skip within rest

theorem cutAt_break (first : b ≠ 13) (rest : Bytes) : cutAt (crlf ++ crlf) (crlf ++ b :: rest) =
    (cutAt (crlf ++ crlf) (b :: rest)).map fun (before,found) => (crlf ++ before,found) := by
  have one : ¬ crlf ++ crlf <+: 13 :: 10 :: b :: rest := by simp [crlf,first.symm]
  have two : ¬ crlf ++ crlf <+: 10 :: b :: rest := by simp [crlf]
  show cutAt (crlf ++ crlf) (13 :: 10 :: b :: rest) = _
  rw [cutAt_next one,cutAt_next two,Option.map_map]
  rfl

theorem cutAt_lines (filled : lines ≠ []) (sound : ∀ l ∈ lines, l.Sound) (rest : Bytes) :
    ∃ before, cutAt (crlf ++ crlf) (lines.flatMap Line.bytes ++ (crlf ++ rest)) = some (before,crlf ++ crlf ++ rest) ∧
      before ++ crlf = lines.flatMap Line.bytes := by
  induction lines with
  | nil => exact absurd rfl filled
  | cons l lines ih =>
    have ⟨open',others⟩ := List.forall_mem_cons.mp sound
    have line : (l :: lines).flatMap Line.bytes ++ (crlf ++ rest) =
        l.text ++ (crlf ++ (lines.flatMap Line.bytes ++ (crlf ++ rest))) := by simp [Line.bytes]
    rw [line,cutAt_text open'.open]
    cases lines with
    | nil =>
      have blank : crlf ++ crlf <+: crlf ++ ([].flatMap Line.bytes ++ (crlf ++ rest)) := ⟨rest,rfl⟩
      refine ⟨l.text,?_,by simp [Line.bytes]⟩
      rw [cutAt_here blank]
      simp
    | cons l' lines =>
      obtain ⟨before,cut,same⟩ := ih (by simp) others
      obtain ⟨b,more,text,first,_⟩ := (others l' List.mem_cons_self).first
      have begun : (l' :: lines).flatMap Line.bytes ++ (crlf ++ rest) =
          b :: (more ++ crlf ++ (lines.flatMap Line.bytes ++ (crlf ++ rest))) := by simp [Line.bytes,text]
      rw [begun] at cut ⊢
      refine ⟨l.text ++ (crlf ++ before),?_,by simp [same,Line.bytes]⟩
      rw [cutAt_break first,cut]
      rfl

def mark (boundary : Bytes) : Bytes := dashes ++ boundary

theorem cutAt_data (clean : 13 ∉ boundary) (absent : ¬ boundary <:+: data) (rest : Bytes) :
    cutAt (crlf ++ mark boundary) (data ++ (crlf ++ mark boundary ++ rest)) =
      some (data,crlf ++ mark boundary ++ rest) := by
  have apart : 13 ∉ 10 :: mark boundary := by simp [mark,dashes,clean]
  refine cutAt_append apart (fun within => absent (List.IsInfix.trans ?_ within)) rest
  exact (List.suffix_append (13 :: 10 :: dashes) boundary).isInfix

theorem begins_mark (boundary rest : Bytes) : beginsWith (mark boundary) (mark boundary ++ rest) = true :=
  beginsWith_iff.mpr (List.prefix_append _ _)

theorem drop_mark (boundary rest : Bytes) : (mark boundary ++ rest).drop (mark boundary).length = rest := List.drop_left

theorem nextPart_lines (filled : lines ≠ []) (sound : ∀ l ∈ lines, l.Sound) (few : lines.length ≤ maxHeaders)
    (clean : 13 ∉ boundary) (absent : ¬ boundary <:+: data) (rest : Bytes) :
    nextPart boundary (mark boundary ++ (crlf ++ (lines.flatMap Line.bytes ++
      (crlf ++ (data ++ (crlf ++ mark boundary ++ rest)))))) =
      .part { partOf (lines.foldl Line.put []) with data := .ok data } (mark boundary ++ rest) := by
  obtain ⟨before,cut,same⟩ := cutAt_lines filled sound (data ++ (crlf ++ mark boundary ++ rest))
  have headers : readHeaders (maxHeaders + 1) (before ++ crlf ++ crlf) [] = some (lines.foldl Line.put []) := by
    rw [same]
    exact readHeaders_lines sound (Nat.lt_succ_of_le few)
  have behind : (crlf ++ crlf ++ (data ++ (crlf ++ mark boundary ++ rest))).drop 4 =
      data ++ (crlf ++ mark boundary ++ rest) := rfl
  have more : (crlf ++ mark boundary ++ rest).drop 2 = mark boundary ++ rest := rfl
  have found := cutAt_data clean absent rest
  -- What the reader asks of the text at each place on its way, in its order.
  have starts := begins_mark boundary
  have past := drop_mark boundary
  have long (tail : Bytes) : ¬ (crlf ++ tail).length < 2 := by simp [crlf]
  have onward (tail : Bytes) : beginsWith dashes (crlf ++ tail) = false := rfl
  have unblank (tail : Bytes) : (crlf ++ tail).dropWhile isBlankByte = crlf ++ tail := rfl
  have line (tail : Bytes) : beginsWith crlf (crlf ++ tail) = true := rfl
  have next (tail : Bytes) : (crlf ++ tail).drop 2 = tail := rfl
  unfold mark at *
  simp only [nextPart,starts,past,long,onward,unblank,line,next,cut,headers,behind,found,more,Bool.not_true,
    Bool.false_eq_true,if_false]

theorem nextPart_end (boundary rest : Bytes) : nextPart boundary (mark boundary ++ (dashes ++ rest)) = .finished := by
  have starts := begins_mark boundary
  have past := drop_mark boundary
  have long : ¬ (dashes ++ rest).length < 2 := by simp [dashes]
  have ends : beginsWith dashes (dashes ++ rest) = true := rfl
  unfold mark at *
  simp only [nextPart,starts,past,long,ends,Bool.not_true,Bool.false_eq_true,if_false,if_true]

def Quotable (bs : Bytes) : Prop := ∀ b ∈ bs, valueByte b = true ∧ b ≠ 34 ∧ b ≠ 61

def quoted (bs : Bytes) : Bytes := 34 :: (bs ++ [34])

def nameLabel : Bytes := Text.utf8 "name="
def fileLabel : Bytes := Text.utf8 "filename="

def disposition (name : Bytes) (fileName : Option Bytes) : Bytes :=
  Text.utf8 "form-data; " ++ (nameLabel ++ (quoted name ++
    match fileName with
    | some fileName => Text.utf8 "; " ++ (fileLabel ++ quoted fileName)
    | none => []))

variable {label name fileName : Bytes} {other : Option Bytes}

theorem labelled_quoted {skipped : Bytes} (rest : Bytes) (cut : cutAt label bs = some (skipped,label ++ (quoted data ++ rest)))
    (spaced : skipped.getLast? = some 32) (closed : 34 ∉ data) : labelled label (fuel + 1) bs = some data := by
  have unquoted : ∀ b ∈ data, (b != 34) = true := by
    intro b mem
    have apart : b ≠ 34 := fun same => closed (same ▸ mem)
    simp [apart]
  have text : (data ++ 34 :: rest).takeWhile (· != 34) = data := (Text.while_stops rest unquoted (by decide)).1
  have suffix : (label ++ (quoted data ++ rest)).drop label.length = 34 :: (data ++ 34 :: rest) := by
    simp [quoted]
  have fresh : isSpaceByte 32 = true := by decide
  rw [labelled]
  simp [cut,suffix,spaced,text,fresh]

theorem name_read (quotable : Quotable name) :
    labelled nameLabel (fuel + 1) (disposition name other) = some name := by
  have cut (rest : Bytes) : cutAt nameLabel (Text.utf8 "form-data; " ++ (nameLabel ++ rest)) =
      some (Text.utf8 "form-data; ",nameLabel ++ rest) := by
    have start := cutAt_here (List.prefix_append nameLabel rest)
    rw [show nameLabel = 110 :: Text.utf8 "ame=" from rfl] at start ⊢
    rw [cutAt_skip (by decide),start]
    rfl
  exact labelled_quoted _ (cut _) (by decide) fun mem => (quotable _ mem).2.1 rfl

-- An equals sign stands behind the first label only, so that the second does not begin before its place.
theorem fileLabel_absent (single : 61 ∉ rest) : ¬ fileLabel <:+: Text.utf8 "form-data; " ++ (nameLabel ++ rest) := by
  rintro ⟨before,after,split⟩
  have left : Text.utf8 "form-data; " ++ (nameLabel ++ rest) = Text.utf8 "form-data; name" ++ 61 :: rest := rfl
  have right : before ++ fileLabel ++ after = (before ++ Text.utf8 "filename") ++ 61 :: after := by
    simp [show fileLabel = Text.utf8 "filename" ++ [61] from rfl]
  rw [left,right] at split
  obtain ⟨same,_,_⟩ := (List.append_cons_inj_of_notMem (by decide) single).mp split.symm
  have ends : Text.utf8 "filename" <:+ Text.utf8 "form-data; name" := ⟨before,same.symm⟩
  exact absurd ends (by decide)

theorem quoted_single (quotable : Quotable name) : 61 ∉ quoted name := by
  have apart : 61 ∉ name := fun mem => (quotable _ mem).2.2 rfl
  simp [quoted,apart]

theorem fileName_read (named : Quotable name) (quotable : Quotable fileName) :
    labelled fileLabel (fuel + 1) (disposition name (some fileName)) = some fileName := by
  have single : 61 ∉ quoted name ++ Text.utf8 "; " := by
    rw [List.mem_append,not_or]
    exact ⟨quoted_single named,by decide⟩
  have whole : disposition name (some fileName) =
      Text.utf8 "form-data; " ++ (nameLabel ++ (quoted name ++ Text.utf8 "; ")) ++
        (fileLabel ++ (quoted fileName ++ [])) := by simp [disposition]
  have spaced : (Text.utf8 "form-data; " ++ (nameLabel ++ (quoted name ++ Text.utf8 "; "))).getLast? = some 32 := by
    rw [← List.append_assoc,← List.append_assoc,List.getLast?_append_of_ne_nil _ (by decide)]
    decide
  rw [whole]
  exact labelled_quoted [] (cutAt_append (by decide) (fileLabel_absent single) _) spaced
    fun mem => (quotable _ mem).2.1 rfl

theorem no_fileName (named : Quotable name) : labelled fileLabel (fuel + 1) (disposition name none) = none := by
  have absent : ¬ fileLabel <:+: Text.utf8 "form-data; " ++ (nameLabel ++ (quoted name ++ [])) :=
    fileLabel_absent (by simpa using quoted_single named)
  rw [labelled,disposition,cutAt_none absent]

def Item.headLines : Item → List Line
  | .text name _ => [⟨Text.utf8 "Content-Disposition",32 :: disposition (Text.utf8 name) none⟩]
  | .file name fileName contentType _ =>
    [⟨Text.utf8 "Content-Disposition",32 :: disposition (Text.utf8 name) (some (Text.utf8 fileName))⟩,
      ⟨Text.utf8 "Content-Type",32 :: Text.utf8 contentType⟩]

-- The items that keep to their lines, and do not contain the boundary.
inductive Item.Sound (boundary : Bytes) : Item → Prop where
  | text {name value : String} (named : Quotable (Text.utf8 name)) (apart : ¬ boundary <:+: Text.utf8 value) :
      Sound boundary (.text name value)
  | file {name fileName contentType : String} {data : Bytes} (named : Quotable (Text.utf8 name))
      (called : Quotable (Text.utf8 fileName)) (typed : ∀ b ∈ Text.utf8 contentType, valueByte b = true)
      (apart : ¬ boundary <:+: data) : Sound boundary (.file name fileName contentType data)

variable {i : Item} {items : List Item}

theorem Item.Sound.apart (sound : i.Sound boundary) : ¬ boundary <:+: i.content := by
  cases sound with
  | text _ apart => exact apart
  | file _ _ _ apart => exact apart

theorem utf8_head (i : Item) : Text.utf8 i.head = i.headLines.flatMap Line.bytes ++ crlf := by
  have start : Text.utf8 "Content-Disposition: form-data; name=\"" =
      Text.utf8 "Content-Disposition" ++ 58 :: 32 :: (Text.utf8 "form-data; " ++ (nameLabel ++ [34])) := rfl
  cases i with
  | text name value =>
    have finish : Text.utf8 "\"\r\n\r\n" = 34 :: (crlf ++ crlf) := rfl
    have whole (a b : String) : Text.utf8 (a ++ name ++ b) = Text.utf8 a ++ (Text.utf8 name ++ Text.utf8 b) := by
      simp only [Text.utf8_append,List.append_assoc]
    refine (whole _ _).trans ?_
    rw [start,finish,Item.headLines]
    simp [Line.bytes,Line.text,disposition,quoted]
  | file name fileName contentType data =>
    have file : Text.utf8 "\"; filename=\"" = 34 :: (Text.utf8 "; " ++ (fileLabel ++ [34])) := rfl
    have type : Text.utf8 "\"\r\nContent-Type: " = 34 :: (crlf ++ (Text.utf8 "Content-Type" ++ [58,32])) := rfl
    have finish : Text.utf8 "\r\n\r\n" = crlf ++ crlf := rfl
    have whole (a b c d : String) : Text.utf8 (a ++ name ++ b ++ fileName ++ c ++ contentType ++ d) = Text.utf8 a ++
        (Text.utf8 name ++ (Text.utf8 b ++ (Text.utf8 fileName ++ (Text.utf8 c ++ (Text.utf8 contentType ++
          Text.utf8 d))))) := by
      simp only [Text.utf8_append,List.append_assoc]
    refine (whole _ _ _ _).trans ?_
    rw [start,file,type,finish,Item.headLines]
    simp [Line.bytes,Line.text,disposition,quoted]

theorem encodeItem_eq (boundary : String) (i : Item) : encodeItem boundary i = mark (Text.utf8 boundary) ++
    (crlf ++ (i.headLines.flatMap Line.bytes ++ (crlf ++ (i.content ++ crlf)))) := by
  have start : Text.utf8 "--" = dashes := rfl
  have line : Text.utf8 "\r\n" = crlf := rfl
  simp [encodeItem,Text.utf8_append,utf8_head,mark,start,line]

theorem encode_mark (boundary : String) (items : List Item) :
    ∃ rest, encode boundary items = mark (Text.utf8 boundary) ++ rest := by
  cases items with
  | nil =>
    refine ⟨Text.utf8 "--\r\n",?_⟩
    simp only [encode,List.flatMap_nil,List.nil_append,Text.utf8_append]
    rfl
  | cons i items =>
    rw [encode,List.flatMap_cons,encodeItem_eq,List.append_assoc,List.append_assoc]
    exact ⟨_,rfl⟩

theorem disposition_visible (other : Option Bytes) (named : Quotable name) (called : ∀ f ∈ other, Quotable f) :
    ∀ b ∈ disposition name other, valueByte b = true := by
  have fixed : (Text.utf8 "form-data; ").all valueByte ∧ nameLabel.all valueByte ∧ (Text.utf8 "; ").all valueByte ∧
      fileLabel.all valueByte ∧ valueByte 34 = true := by decide
  simp only [List.all_eq_true] at fixed
  have inside {bs : Bytes} (quotable : Quotable bs) : ∀ b ∈ quoted bs, valueByte b = true := by
    intro b mem
    simp only [quoted,List.mem_cons,List.mem_append,List.not_mem_nil,or_false] at mem
    rcases mem with rfl | mem | rfl
    · exact fixed.2.2.2.2
    · exact (quotable b mem).1
    · exact fixed.2.2.2.2
  intro b mem
  unfold disposition at mem
  rw [List.mem_append,List.mem_append,List.mem_append] at mem
  rcases mem with mem | mem | mem | mem
  · exact fixed.1 b mem
  · exact fixed.2.1 b mem
  · exact inside named b mem
  · cases other with
    | none => cases mem
    | some fileName =>
      rw [List.mem_append,List.mem_append] at mem
      rcases mem with mem | mem | mem
      · exact fixed.2.2.1 b mem
      · exact fixed.2.2.2.1 b mem
      · exact inside (called fileName rfl) b mem

theorem Item.Sound.headLines (sound : i.Sound boundary) : ∀ l ∈ i.headLines, l.Sound := by
  have names : (Text.utf8 "Content-Disposition" ≠ [] ∧ (Text.utf8 "Content-Disposition").all nameByte) ∧
      Text.utf8 "Content-Type" ≠ [] ∧ (Text.utf8 "Content-Type").all nameByte := by decide
  simp only [List.all_eq_true] at names
  have behind {bs : Bytes} (visible : ∀ b ∈ bs, valueByte b = true) : ∀ b ∈ 32 :: bs, valueByte b = true :=
    List.forall_mem_cons.mpr ⟨rfl,visible⟩
  cases sound with
  | text named _ =>
    have visible := disposition_visible none named (by simp)
    exact List.forall_mem_singleton.mpr ⟨names.1.1,names.1.2,behind visible⟩
  | @file _ fileName _ _ named called typed _ =>
    have visible := disposition_visible (some (Text.utf8 fileName)) named (by simpa using called)
    refine List.forall_mem_cons.mpr ⟨⟨names.1.1,names.1.2,behind visible⟩,List.forall_mem_singleton.mpr ?_⟩
    exact ⟨names.2.1,names.2.2,behind typed⟩

theorem Item.headLines_few (i : Item) : i.headLines ≠ [] ∧ i.headLines.length ≤ 2 := by
  cases i <;> simp [Item.headLines]

def Item.read (i : Item) : Headers := i.headLines.foldl Line.put []

theorem quoted_last (bs : Bytes) : (quoted bs).getLast? = some 34 := by
  rw [quoted,← List.cons_append,List.getLast?_concat]

theorem trimBlanks_disposition (name : Bytes) (other : Option Bytes) :
    trimBlanks (32 :: disposition name other) = disposition name other := by
  have last : (disposition name other).getLast? = some 34 := by
    cases other <;> simp [disposition,List.getLast?_append,quoted_last]
  have strips : Text.Strips isBlankByte (32 :: disposition name other) (disposition name other) := by
    refine ⟨⟨[32],[],by simp,List.forall_mem_singleton.mpr rfl⟩,?_,?_⟩
    · intro b first
      cases first
      rfl
    · rw [last]
      intro b same
      cases same
      rfl
  exact strips.eq (List.cons_ne_nil _ _)

def readType (contentType : String) : Option String :=
  ((Headers.readable (trimBlanks (32 :: Text.utf8 contentType))).bind Http.MediaType.parse).map (·.text)

theorem labelledText_name {name : String} (other : Option Bytes) (named : Quotable (Text.utf8 name)) :
    labelledText "name=" (disposition (Text.utf8 name) other) = some name := by
  rw [labelledText]
  exact (congrArg (Option.bind · Text.ofUtf8?) (name_read named)).trans (Text.ofUtf8?_utf8 name)

theorem labelledText_fileName {name : Bytes} {fileName : String} (named : Quotable name)
    (called : Quotable (Text.utf8 fileName)) :
    labelledText "filename=" (disposition name (some (Text.utf8 fileName))) = some fileName := by
  rw [labelledText]
  exact (congrArg (Option.bind · Text.ofUtf8?) (fileName_read named called)).trans (Text.ofUtf8?_utf8 fileName)

theorem labelledText_none {name : Bytes} (named : Quotable name) :
    labelledText "filename=" (disposition name none) = none := by
  rw [labelledText]
  exact congrArg (Option.bind · Text.ofUtf8?) (no_fileName named)

def Item.part : Item → Part
  | .text name _ => ⟨some name,none,none,.ok []⟩
  | .file name fileName contentType _ => ⟨some name,some fileName,readType contentType,.ok []⟩

theorem partOf_item (sound : i.Sound boundary) : partOf i.read = i.part := by
  have names : Text.lowered (String.ofList ((Text.utf8 "Content-Disposition").map charOf)) = "content-disposition" ∧
      Text.lowered (String.ofList ((Text.utf8 "Content-Type").map charOf)) = "content-type" := by decide
  cases sound with
  | @text name value named _ =>
    have headers : (Item.text name value).read = [("content-disposition",disposition (Text.utf8 name) none)] := by
      show [(_,trimBlanks _)] = _
      rw [names.1,trimBlanks_disposition]
    have part (d : Bytes) : partOf [("content-disposition",d)] =
        ⟨labelledText "name=" d,labelledText "filename=" d,none,.ok []⟩ := rfl
    rw [headers,part,labelledText_name _ named,labelledText_none named]
    rfl
  | @file name fileName contentType data named called _ _ =>
    have headers : (Item.file name fileName contentType data).read =
        [("content-disposition",disposition (Text.utf8 name) (some (Text.utf8 fileName))),
          ("content-type",trimBlanks (32 :: Text.utf8 contentType))] := by
      show Headers.set [(_,trimBlanks _)] _ _ = _
      rw [names.1,names.2,trimBlanks_disposition]
      rfl
    have part (d v : Bytes) : partOf [("content-disposition",d),("content-type",v)] =
        ⟨labelledText "name=" d,labelledText "filename=" d,((Headers.readable v).bind Http.MediaType.parse).map (·.text),
          .ok []⟩ := rfl
    rw [headers,part,labelledText_name _ named,labelledText_fileName named called]
    rfl

def Item.addTo (m : Multipart) : Item → Multipart
  | .text name value => { m with fields := m.fields ++ [(name,value)] }
  | .file name fileName contentType data => { m with files := m.files ++ [⟨name,some fileName,readType contentType,data⟩] }

theorem addPart_item (sound : i.Sound boundary) (m : Multipart) :
    addPart { partOf i.read with data := .ok i.content } m = .ok (i.addTo m) := by
  rw [partOf_item sound]
  cases i with
  | text name value =>
    show addPart ⟨some name,none,none,.ok (Text.utf8 value)⟩ m = _
    simp only [addPart,Text.ofUtf8?_utf8]
    rfl
  | file name fileName contentType data => rfl

def Item.field? : Item → Option (String × String)
  | .text name value => some (name,value)
  | .file .. => none

def Item.upload? : Item → Option Upload
  | .text .. => none
  | .file name fileName contentType data => some ⟨name,some fileName,readType contentType,data⟩

def addAll (m : Multipart) (items : List Item) : Multipart :=
  ⟨m.fields ++ items.filterMap Item.field?,m.files ++ items.filterMap Item.upload?⟩

theorem addAll_cons (m : Multipart) (i : Item) (items : List Item) : addAll m (i :: items) = addAll (i.addTo m) items := by
  cases i <;> simp [addAll,Item.addTo,Item.field?,Item.upload?,List.filterMap_cons]

theorem nextPart_item {boundary : String} (clean : 13 ∉ Text.utf8 boundary) (sound : i.Sound (Text.utf8 boundary))
    (items : List Item) : nextPart (Text.utf8 boundary) (encode boundary (i :: items)) =
      .part { partOf i.read with data := .ok i.content } (encode boundary items) := by
  obtain ⟨rest,later⟩ := encode_mark boundary items
  have whole : encode boundary (i :: items) = mark (Text.utf8 boundary) ++ (crlf ++ (i.headLines.flatMap Line.bytes ++
      (crlf ++ (i.content ++ (crlf ++ mark (Text.utf8 boundary) ++ rest))))) := by
    have first : encode boundary (i :: items) = encodeItem boundary i ++ encode boundary items := by
      simp [encode,List.append_assoc]
    rw [first,later,encodeItem_eq]
    simp only [List.append_assoc]
  have few : i.headLines.length ≤ maxHeaders := i.headLines_few.2.trans (by decide)
  rw [whole,later]
  exact nextPart_lines i.headLines_few.1 sound.headLines few clean sound.apart rest

theorem nextPart_none (boundary : String) : nextPart (Text.utf8 boundary) (encode boundary []) = .finished := by
  have whole : encode boundary [] = mark (Text.utf8 boundary) ++ (dashes ++ crlf) := by
    have start : Text.utf8 "--" = dashes := rfl
    have finish : Text.utf8 "--\r\n" = dashes ++ crlf := rfl
    simp [encode,Text.utf8_append,mark,start,finish]
  rw [whole]
  exact nextPart_end _ _

-- As many parts are read as are allowed: all of them, or else none is returned.
theorem readParts_encode {boundary : String} {most count fuel : Nat} (clean : 13 ∉ Text.utf8 boundary)
    (sound : ∀ i ∈ items, i.Sound (Text.utf8 boundary)) (enough : items.length < fuel) (room : count ≤ most)
    (m : Multipart) : readParts (Text.utf8 boundary) most fuel count (encode boundary items) m =
      if count + items.length ≤ most then .ok (addAll m items) else .error (.tooMany most) := by
  induction items generalizing count fuel m with
  | nil =>
    obtain ⟨fuel,rfl⟩ : ∃ n, fuel = n + 1 := Nat.exists_eq_add_one_of_ne_zero (Nat.ne_zero_of_lt enough)
    rw [readParts,nextPart_none]
    simp [room,addAll]
  | cons i items ih =>
    obtain ⟨fuel,rfl⟩ : ∃ n, fuel = n + 1 := Nat.exists_eq_add_one_of_ne_zero (Nat.ne_zero_of_lt enough)
    have ⟨first,others⟩ := List.forall_mem_cons.mp sound
    rw [readParts,nextPart_item clean first]
    by_cases full : most ≤ count
    · have beyond : ¬ count + (i :: items).length ≤ most := by
        simp only [List.length_cons]
        omega
      rw [if_neg beyond]
      exact if_pos full
    · have next := ih others (Nat.lt_of_succ_lt_succ enough) (Nat.lt_of_not_le full) (i.addTo m)
      have same : count.succ + items.length = count + (i :: items).length := Nat.succ_add_eq_add_succ _ _
      rw [← addAll_cons,same] at next
      rw [← next]
      refine (if_neg full).trans ?_
      rw [addPart_item first]
      rfl

theorem length_encode (boundary : String) (items : List Item) : items.length ≤ (encode boundary items).length := by
  induction items with
  | nil => exact Nat.zero_le _
  | cons i items ih =>
    have first : (encode boundary (i :: items)).length = (encodeItem boundary i).length + (encode boundary items).length := by
      simp only [encode,List.flatMap_cons,List.length_append,Nat.add_assoc]
    have long : 2 ≤ (encodeItem boundary i).length := by
      rw [encodeItem,List.length_append]
      exact Nat.le_add_left _ _
    rw [first,List.length_cons]
    omega

theorem readBody_encode {boundary : String} {most : Nat} (clean : 13 ∉ Text.utf8 boundary)
    (sound : ∀ i ∈ items, i.Sound (Text.utf8 boundary)) :
    readBody (Text.utf8 boundary) most (encode boundary items) =
      if items.length ≤ most then .ok (addAll ⟨[],[]⟩ items) else .error (.tooMany most) := by
  have begun : start (Text.utf8 boundary) (encode boundary items) = some (encode boundary items) := by
    obtain ⟨rest,whole⟩ := encode_mark boundary items
    have here : cutAt (mark (Text.utf8 boundary)) (encode boundary items) = _ := cutAt_here ⟨rest,whole.symm⟩
    exact congrArg (Option.map Prod.snd) here
  have enough := Nat.lt_succ_of_le (length_encode boundary items)
  rw [readBody,begun]
  refine (readParts_encode clean sound enough (Nat.zero_le most) ⟨[],[]⟩).trans ?_
  rw [Nat.zero_add]

end ServiceKit.Form.Multipart
