import ServiceKit.Testing.Response
import ServiceKit.Proofs.Json.Values

namespace ServiceKit

namespace Record
open Json (quoted numberText)
open Json.Reader
open Text (Bytes)
open Validation
variable {c : Catalog} {t : RecordType} {f : FieldType} {k s expected : String} {given : List (String × Datum)} {v : Datum}
  {fuel depth n : Nat} {first : Bool} {bs rest : Bytes} {answer : Option (List (String × Datum) × Bytes)}

theorem gives_text (expected s : String) (rest : Bytes) :
    Gives (Record.text expected) (written (quoted s) ++ rest) (some (s,rest)) := by
  rw [written_quoted]
  exact Gives.placed ((gives_blanks rfl _).bind ((gives_eat 34 _).bind (gives_stringBody s rest)))

theorem gives_textField (c : Catalog) (fuel depth : Nat) (s : String) (rest : Bytes) :
    Gives (decode c (fuel + 1) depth .text) (written (quoted s) ++ rest) (some (.text s,rest)) := by
  unfold decode
  exact Gives.bind (gives_text "a string" s rest) (gives_pure _ _)

theorem gives_number {kind : IntKind} (fits : kind.fits n = true) (less : n < Nat.pow 2 64) (ends : Ends rest) :
    Gives (Record.number c (.int kind)) (written (numberText (.int n)) ++ rest) (some (.int n,rest)) := by
  obtain ⟨b,bs,begins,digit⟩ := numeral_begins (plain_formed less)
  have read := gives_numeral (plain_formed less) ends true
  rw [plain_number] at read
  rw [Json.numberText_digits,← plain_chars]
  refine Gives.placed ?_
  rw [begins] at read ⊢
  obtain ⟨_,_,_,_,_,_,_,solid⟩ := digit_apart digit
  refine (gives_blanks solid _).bind ?_
  simp only [digit,if_true]
  refine Gives.bind read ?_
  have told : Shape.ofNumber c (.int kind) (wholeNumber true n) = .ok (.int n) := if_pos fits
  rw [told]
  exact gives_pure _ _

theorem gives_numberField {kind : IntKind} (fits : kind.fits n = true) (less : n < Nat.pow 2 64) (ends : Ends rest) :
    Gives (decode c (fuel + 1) depth (.int kind)) (written (numberText (.int n)) ++ rest) (some (.int n,rest)) := by
  unfold decode
  exact gives_number fits less ends

def labelled (first : Bool) (k : String) (bs : Bytes) : Bytes :=
  (if first then [] else [44]) ++ (written (quoted k) ++ 58 :: bs)

theorem gives_moreMembers (first : Bool) (k : String) (bs : Bytes) :
    Gives (moreMembers first) (labelled first k bs) (some (true,written (quoted k) ++ 58 :: bs)) := by
  rw [labelled,written_quoted]
  cases first with
  | true => exact gives_firstMember _
  | false => exact gives_nextMember _

section Member
variable (known : t.field? k = some f) (new : (given.any fun g => g.1 == k) = false)
include known new

theorem gives_field (read : Gives (decode c fuel depth f.shape) bs (some (v,rest)))
    (later : Gives (decodeMembers c fuel depth t false (given ++ [(k,v)])) rest answer) :
    Gives (decodeMembers c (fuel + 1) depth t first given) (labelled first k bs) answer := by
  unfold decodeMembers
  refine (gives_moreMembers first k bs).bind ((gives_key k _).bind ?_)
  simp only [known,new]
  exact (gives_colon _).bind (read.bind later)

theorem gives_noField (read : Gives (decode c fuel depth f.shape) bs none) :
    Gives (decodeMembers c (fuel + 1) depth t first given) (labelled first k bs) none := by
  unfold decodeMembers
  refine (gives_moreMembers first k bs).bind ((gives_key k _).bind ?_)
  simp only [known,new]
  exact (gives_colon bs).bind read.bind_none

end Member

theorem gives_allMembers (rest : Bytes) :
    Gives (decodeMembers c (fuel + 1) depth t first given) (125 :: rest) (some (given,125 :: rest)) := by
  unfold decodeMembers
  exact (gives_noMembers first rest).bind (gives_pure _ _)

end Record

namespace Envelope
open Json (quoted numberText)
open Json.Reader Record
open Text (Bytes)
open Validation
variable {e : Envelope} {fuel : Nat} {data : Json}

def told (e : Envelope) : List (String × Datum) :=
  [("message",.text e.message),("code",.text e.code),("status",.int e.status),("trace_id",.text e.traceId)]

theorem catalog_type : Catalog.type? [recordType] "HttpError" = some recordType := rfl

theorem complete_absent (e : Envelope) : recordType.complete (told e) = .ok (.record .named
    [(.plain "message" [],.text e.message),(.plain "code" [],.text e.code),(.plain "status" [],.int e.status),
      (.plain "trace_id" [],.text e.traceId),(.plain "data" [],.optional none)]) := by
  rfl

theorem complete_present (e : Envelope) (v : Datum) : recordType.complete (told e ++ [("data",v)]) = .ok (.record .named
    [(.plain "message" [],.text e.message),(.plain "code" [],.text e.code),(.plain "status" [],.int e.status),
      (.plain "trace_id" [],.text e.traceId),(.plain "data" [],v)]) := by
  rfl

def rereadData : Option Json → Option (Option Json)
  | none => some none
  | some .null => some none
  | some j => (j.reread (depthLimit - 1)).map some

def reread (e : Envelope) : Option Envelope := (rereadData e.data).map fun data => { e with data := data }

def fields (e : Envelope) (data : Option Json) : List (Field × Datum) :=
  [(.plain "message" [],.text e.message),(.plain "code" [],.text e.code),(.plain "status" [],.int e.status),
    (.plain "trace_id" [],.text e.traceId),(.plain "data" [],.optional (data.map .any))]

theorem ofDatum_fields (e : Envelope) (data : Option Json) :
    ofDatum (.record .named (fields e data)) = some { e with data := data } := by
  cases data <;> rfl

theorem gives_data (proper : data.Proper) (room : (written data.compactChars).length ≤ fuel) (rest : Bytes) :
    Gives (decode [recordType] (fuel + 2) (depthLimit - 1) (.optional .any)) (written data.compactChars ++ 125 :: rest)
      ((rereadData (some data)).map fun d => (.optional (d.map .any),125 :: rest)) := by
  have ends : Ends (125 :: rest) := by
    intro b head
    cases head
    exact .inr (.inr rfl)
  have read := echoes_proper (depthLimit - 1) proper fuel (125 :: rest) room ends
  obtain ⟨b,bs,begins,solid,_,null⟩ := compactChars_begins proper
  by_cases empty : data = .null
  · subst empty
    unfold decode
    exact (gives_blanks rfl _).bind ((gives_eat 110 _).bind ((gives_word _ (125 :: rest)).bind (gives_pure _ _)))
  · have other : b ≠ 110 := fun same => empty (null same)
    have present : rereadData (some data) = (data.reread (depthLimit - 1)).map some := by
      cases data with
      | null => exact absurd rfl empty
      | _ => rfl
    rw [present,Option.map_map]
    rw [begins] at read ⊢
    unfold decode
    refine (gives_blanks solid _).bind ?_
    have inner : Gives (decode [recordType] (fuel + 1) (depthLimit - 1) .any) (b :: bs ++ 125 :: rest)
        ((data.reread (depthLimit - 1)).map fun j => (.any j,125 :: rest)) := by
      unfold decode
      have inner := read.map (g := Datum.any)
      rwa [Option.map_map] at inner
    have whole := inner.map (g := fun d => Datum.optional (some d))
    rw [Option.map_map] at whole
    split
    · next same => exact absurd (Option.some.inj same) other
    · exact whole

theorem gives_told {c : Catalog} {depth : Nat} {rest : Bytes} {answer : Option (List (String × Datum) × Bytes)}
    (status : e.status < 65536) (later : Gives (decodeMembers c (fuel + 3) depth recordType false (told e)) rest answer) :
    Gives (decodeMembers c (fuel + 7) depth recordType true [])
      (labelled true "message" (written (quoted e.message) ++ labelled false "code" (written (quoted e.code) ++
        labelled false "status" (written (numberText (.int e.status)) ++ labelled false "trace_id"
          (written (quoted e.traceId) ++ rest))))) answer := by
  have fits : IntKind.u16.fits e.status = true := by
    simp [IntKind.fits,IntKind.least,IntKind.greatest]
    omega
  refine gives_field rfl rfl (gives_textField _ _ _ _ _) ?_
  refine gives_field rfl rfl (gives_textField _ _ _ _ _) ?_
  refine gives_field rfl rfl (gives_numberField fits ?_ ?_) ?_
  · exact Nat.lt_trans status (by decide)
  · intro b head
    cases head
    exact .inl rfl
  · exact gives_field rfl rfl (gives_textField _ _ _ _ _) later

def inside (e : Envelope) : Bytes :=
  labelled true "message" (written (quoted e.message) ++ labelled false "code" (written (quoted e.code) ++
    labelled false "status" (written (numberText (.int e.status)) ++ labelled false "trace_id"
      (written (quoted e.traceId) ++ written (Response.afterTrace e)))))

theorem written_envelope (e : Envelope) : written e.toJson.compactChars = 123 :: inside e := by
  rw [Response.envelope_chars]
  simp only [written_append,written_cons]
  rfl

theorem gives_inside (status : e.status < 65536) (proper : ∀ j ∈ e.data, j.Proper)
    (room : ∀ j ∈ e.data, (written j.compactChars).length ≤ fuel) :
    Gives (do lift (recordType.complete (← decodeMembers [recordType] (fuel + 7) (depthLimit - 1) recordType true [])))
      (inside e) ((rereadData e.data).map fun data => (.record .named (fields e data),[125])) := by
  unfold inside Response.afterTrace
  cases present : e.data with
  | none =>
    refine (gives_told status (gives_allMembers [])).bind ?_
    rw [complete_absent]
    exact gives_pure _ _
  | some data =>
    rw [present] at proper room
    have read := gives_data (proper data rfl) (room data rfl) []
    have split : written (',' :: (quoted "data" ++ ':' :: (data.compactChars ++ ['\x7d']))) =
        labelled false "data" (written data.compactChars ++ 125 :: []) := by
      simp only [written_append,written_cons]
      rfl
    simp only [split]
    cases reading : rereadData (some data) with
    | none =>
      rw [reading] at read
      exact (gives_told status (gives_noField rfl rfl read)).bind_none
    | some d =>
      rw [reading] at read
      refine (gives_told status (gives_field rfl rfl read (gives_allMembers []))).bind ?_
      rw [complete_present]
      exact gives_pure _ _

theorem gives_envelope (status : e.status < 65536) (proper : ∀ j ∈ e.data, j.Proper)
    (room : ∀ j ∈ e.data, (written j.compactChars).length ≤ fuel) :
    Gives (decode [recordType] (fuel + 8) depthLimit (.record "HttpError")) (written e.toJson.compactChars)
      ((rereadData e.data).map fun data => (.record .named (fields e data),[])) := by
  have inner := gives_inside status proper room
  rw [written_envelope]
  unfold decode
  simp only [catalog_type]
  refine Gives.placed ((gives_blanks rfl _).bind ?_)
  refine (gives_eat 123 _).bind ?_
  cases reading : rereadData e.data with
  | none =>
    rw [reading] at inner
    exact inner.andThen_none
  | some d =>
    rw [reading] at inner
    exact inner.andThen (gives_endObject [])

theorem data_within (e : Envelope) : ∀ j ∈ e.data, (written j.compactChars).length ≤ e.toJson.bytes.length := by
  intro j present
  have bytes : e.toJson.bytes = 123 :: inside e := (congrArg written String.toList_ofList).trans (written_envelope e)
  have traced : written (Response.afterTrace e) = labelled false "data" (written j.compactChars ++ 125 :: []) := by
    unfold Response.afterTrace
    rw [Option.mem_def.mp present]
    simp only [written_append,written_cons]
    rfl
  rw [bytes,inside,traced]
  simp only [labelled,List.length_append,List.length_cons]
  omega

theorem ofBytes_read {bs : Bytes} {kept : Option Json}
    (ran : Record.ofBytes [recordType] (.record "HttpError") bs = .ok (.record .named (fields e kept))) :
    ofBytes bs = .ok { e with data := kept } := by
  unfold ofBytes
  rw [ran]
  simp only [bind,Except.bind,ofDatum_fields]

theorem ofBytes_refused {bs : Bytes} {fault : Json.ReadError}
    (ran : Record.ofBytes [recordType] (.record "HttpError") bs = .error fault) : ofBytes bs = .error fault := by
  unfold ofBytes
  rw [ran]
  rfl

theorem ofBytes_bytes (status : e.status < 65536) (proper : ∀ j ∈ e.data, j.Proper) :
    (ofBytes e.toJson.bytes).toOption = reread e := by
  have bytes : e.toJson.bytes = written e.toJson.compactChars := congrArg written String.toList_ofList
  have room : ∀ j ∈ e.data, (written j.compactChars).length ≤ 8 * e.toJson.bytes.length + 56 := by
    intro j present
    have within := data_within e j present
    omega
  have gives := gives_envelope status proper room
  rw [← bytes] at gives
  have read : (Record.ofBytes [recordType] (.record "HttpError") e.toJson.bytes).toOption =
      (rereadData e.data).map fun data => .record .named (fields e data) := by
    refine Gives.document ?_
    rw [Option.map_map]
    exact gives
  unfold reread
  cases ran : Record.ofBytes [recordType] (.record "HttpError") e.toJson.bytes with
  | error fault =>
    rw [ran] at read
    rw [ofBytes_refused ran,Option.map_eq_none_iff.mp read.symm]
    rfl
  | ok d =>
    rw [ran] at read
    obtain ⟨kept,told,same⟩ := Option.map_eq_some_iff.mp read.symm
    rw [ofBytes_read (ran.trans (congrArg Except.ok same.symm)),told]
    rfl

-- Data that comes back: not null, not nested too deeply within the envelope, and with numbers that are read as themselves.
structure Survives (j : Json) : Prop where
  something : j ≠ .null
  shallow : j.depth + 1 < depthLimit
  kept : ∀ x, .float x ∈ j.numbers → x.Kept

theorem reread_same : reread e = some e ↔ ∀ j ∈ e.data, Survives j := by
  have whole : reread e = some e ↔ rereadData e.data = some e.data := by
    unfold reread
    rw [Option.map_eq_some_iff]
    constructor
    · rintro ⟨data,told,same⟩
      rw [told,← congrArg Envelope.data same]
    · exact fun told => ⟨e.data,told,rfl⟩
  have numbers (j : Json) : (∀ n ∈ j.numbers, n.reread = some n) ↔ ∀ x, .float x ∈ j.numbers → x.Kept := by
    constructor
    · exact fun all x mem => all (.float x) mem
    · intro kept n mem
      cases n with
      | int i => rfl
      | float x => exact kept x mem
  rw [whole]
  cases e.data with
  | none => simp [rereadData]
  | some j =>
    have deep : j.reread (depthLimit - 1) = some j ↔ j.depth + 1 < depthLimit ∧ ∀ x, .float x ∈ j.numbers → x.Kept := by
      rw [← numbers,show depthLimit - 1 = 126 + 1 from rfl,Json.reread_self]
      exact and_congr_left' (Nat.succ_lt_succ_iff.trans Nat.lt_succ_iff).symm
    have told : rereadData (some j) = some (some j) ↔ j ≠ .null ∧ j.reread (depthLimit - 1) = some j := by
      cases j <;> simp [rereadData]
    rw [told,deep]
    simp only [Option.mem_def,Option.some.injEq,forall_eq']
    exact ⟨fun ⟨something,shallow,kept⟩ => ⟨something,shallow,kept⟩,fun whole => ⟨whole.something,whole.shallow,whole.kept⟩⟩

theorem reread_told {read : Envelope} (told : reread e = some read) : { read with data := e.data } = e := by
  obtain ⟨data,_,rfl⟩ := Option.map_eq_some_iff.mp told
  rfl

end Envelope

namespace Testing
variable {r : Response} {e read : Envelope}

theorem envelope_ok : Answer.envelope r = .ok read ↔ (Envelope.ofBytes r.body).toOption = some read := by
  unfold Answer.envelope
  cases Envelope.ofBytes r.body with
  | ok e => simp [Except.toOption]
  | error fault => simp [Except.toOption]

structure Returned (e : Envelope) (answer : Except TestError Envelope) : Prop where
  same : answer = .ok e ↔ ∀ j ∈ e.data, Envelope.Survives j
  short : (∀ j ∈ e.data, j ≠ .null ∧ j.depth + 1 < Json.Reader.depthLimit ∧ ∀ x, .float x ∈ j.numbers → x.short = true) →
    answer = .ok e
  null : e.data = some .null → answer = .ok { e with data := none }
  rest : ∀ read, answer = .ok read → { read with data := e.data } = e

section Answered
variable (bears : r.Bears e) (status : e.status < 65536) (proper : ∀ j ∈ e.data, j.Proper)
include bears status proper

theorem envelope_reread (read : Envelope) : Answer.envelope r = .ok read ↔ Envelope.reread e = some read := by
  rw [envelope_ok,bears,Envelope.ofBytes_bytes status proper]

theorem envelope_same : Answer.envelope r = .ok e ↔ ∀ j ∈ e.data, Envelope.Survives j :=
  (envelope_reread bears status proper e).trans Envelope.reread_same

-- An envelope comes back as it was sent but for data that JSON text does not carry.
theorem envelope_returned : Returned e (Answer.envelope r) := by
  have answered := envelope_reread bears status proper
  have same := envelope_same bears status proper
  refine ⟨same,?_,?_,?_⟩
  · intro plain
    refine same.mpr fun j present => ?_
    obtain ⟨something,shallow,short⟩ := plain j present
    exact ⟨something,shallow,fun x mem => Binary64.short_kept (short x mem)⟩
  · intro null
    rw [answered,Envelope.reread,null]
    rfl
  · exact fun read told => Envelope.reread_told ((answered read).mp told)

end Answered

def refusal (data : Json) : Envelope where
  message := "sold \"out\""
  code := "SOLD_OUT"
  status := 409
  traceId := "tr-1"
  data := some data

def stock : Json := .object
  [("left",.array [.number (.int (-3)),.null,.number (.float ⟨0x3FF8000000000000⟩)]),("sku",.string "a")]

theorem stock_returned : (refusal stock).status < 65536 ∧ stock.Proper ∧
    Answer.envelope (.ofEnvelope (refusal stock)) = .ok (refusal stock) := by
  have status : (refusal stock).status < 65536 := by decide
  have proper : stock.Proper := ⟨by decide,by decide⟩
  have returned := envelope_returned (Response.bears_ofEnvelope (refusal stock)) status fun j present => by
    obtain rfl := Option.some.inj present
    exact proper
  refine ⟨status,proper,returned.short fun j present => ?_⟩
  obtain rfl := Option.some.inj present
  refine ⟨by decide,by decide,fun x mem => ?_⟩
  rw [show stock.numbers = [.int (-3),.float ⟨0x3FF8000000000000⟩] from rfl] at mem
  obtain rfl : x = ⟨0x3FF8000000000000⟩ := by simpa using mem
  decide

def lists : Nat → Json
  | 0 => .array []
  | n + 1 => .array [lists n]

theorem depth_lists (n : Nat) : (lists n).depth = n + 1 := by
  induction n with
  | zero => rfl
  | succ n ih => simp [lists,Json.depth,Json.depthOfItems,ih]

theorem lists_proper (n : Nat) : (lists n).Proper := by
  constructor
  · induction n with
    | zero => rfl
    | succ n ih => simp [lists,Json.sorted,Json.sortedItems,ih]
  · induction n with
    | zero => simp [lists,Json.numbers,Json.numbersOfItems]
    | succ n ih => simpa [lists,Json.numbers,Json.numbersOfItems] using ih

-- Null, too many levels, and digits that are read as another number.
theorem data_lost : Answer.envelope (.ofEnvelope (refusal .null)) ≠ .ok (refusal .null) ∧
    Answer.envelope (.ofEnvelope (refusal (lists 126))) ≠ .ok (refusal (lists 126)) ∧
    Answer.envelope (.ofEnvelope (refusal (.number (.float ⟨0x3FFD287FB5D30D15⟩)))) ≠
      .ok (refusal (.number (.float ⟨0x3FFD287FB5D30D15⟩))) := by
  have survives {j : Json} (proper : j.Proper) (ok : Answer.envelope (.ofEnvelope (refusal j)) = .ok (refusal j)) :
      Envelope.Survives j := by
    have same := envelope_same (Response.bears_ofEnvelope (refusal j)) (show 409 < 65536 by decide) fun j' present => by
      obtain rfl := Option.some.inj present
      exact proper
    exact same.mp ok j rfl
  refine ⟨?_,?_,?_⟩
  · exact fun ok => (survives ⟨rfl,by decide⟩ ok).something rfl
  · intro ok
    have shallow := (survives (lists_proper 126) ok).shallow
    rw [depth_lists] at shallow
    exact absurd shallow (by decide)
  · intro ok
    have kept := (survives ⟨rfl,by decide⟩ ok).kept _ (List.mem_singleton.mpr rfl)
    exact absurd kept (by decide +kernel)

end Testing
end ServiceKit
