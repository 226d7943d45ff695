import ServiceKit.Http.Response
import ServiceKit.Proofs.Text.Bytes

namespace ServiceKit

namespace Json
variable {s s' : String} {r r' : List Char} {c c' : Char}

theorem hexValue_hexDigit : ∀ n < 16, Text.hexValue (Text.hexDigit n) = some n := by decide

def unmark : List Char → Option (Char × List Char)
  | 'u' :: _ :: _ :: high :: low :: rest => do
    return (Char.ofNat (16 * (← Text.hexValue high) + (← Text.hexValue low)),rest)
  | 'b' :: rest => some (Char.ofNat 8,rest)
  | 't' :: rest => some ('\t',rest)
  | 'n' :: rest => some ('\n',rest)
  | 'f' :: rest => some (Char.ofNat 12,rest)
  | 'r' :: rest => some ('\r',rest)
  | c :: rest => some (c,rest)
  | [] => none

-- The first character of an escaped text, and the rest. The quote that ends a text begins no escape.
def unescape : List Char → Option (Char × List Char)
  | [] => none
  | c :: rest => if c = '"' then none else if c = '\\' then unmark rest else some (c,rest)

theorem unescape_escape (c : Char) (r : List Char) : unescape (escape c ++ r) = some (c,r) := by
  unfold escape
  split
  · next quote =>
    subst quote
    rfl
  · next unquoted =>
    split
    · next backslash =>
      subst backslash
      rfl
    · next forward =>
      split
      · next control =>
        have code := Char.ofNat_toNat c
        split
        · next eight => rw [← code,eight]; rfl
        · next nine => rw [← code,nine]; rfl
        · next ten => rw [← code,ten]; rfl
        · next twelve => rw [← code,twelve]; rfl
        · next thirteen => rw [← code,thirteen]; rfl
        · have high := hexValue_hexDigit (c.toNat / 16) (by omega)
          have low := hexValue_hexDigit (c.toNat % 16) (by omega)
          have number : 16 * (c.toNat / 16) + c.toNat % 16 = c.toNat := Nat.div_add_mod c.toNat 16
          simp [unescape,unmark,high,low,number,code]
      · simp [unescape,unquoted,forward]

theorem escape_append (same : escape c ++ r = escape c' ++ r') : c = c' ∧ r = r' := by
  have read := congrArg unescape same
  rw [unescape_escape,unescape_escape] at read
  exact Prod.mk.inj (Option.some.inj read)

theorem escape_open (c : Char) (r r' : List Char) : '"' :: r ≠ escape c ++ r' := by
  intro same
  have read := congrArg unescape same
  rw [unescape_escape] at read
  cases read

theorem closed_append {cs cs' : List Char} (same : cs.flatMap escape ++ '"' :: r = cs'.flatMap escape ++ '"' :: r') :
    cs = cs' ∧ r = r' := by
  induction cs generalizing cs' with
  | nil =>
    cases cs' with
    | nil => exact ⟨rfl,(List.cons.inj same).2⟩
    | cons c' rest' =>
      rw [List.flatMap_cons,List.append_assoc] at same
      exact absurd same (escape_open c' r _)
  | cons c rest ih =>
    rw [List.flatMap_cons,List.append_assoc] at same
    cases cs' with
    | nil => exact absurd same.symm (escape_open c r' _)
    | cons c' rest' =>
      rw [List.flatMap_cons,List.append_assoc] at same
      obtain ⟨rfl,others⟩ := escape_append same
      obtain ⟨rfl,after⟩ := ih others
      exact ⟨rfl,after⟩

theorem quoted_append (same : quoted s ++ r = quoted s' ++ r') : s = s' ∧ r = r' := by
  unfold quoted at same
  rw [List.cons_append,List.cons_append,List.append_assoc,List.append_assoc] at same
  obtain ⟨texts,after⟩ := closed_append (List.cons.inj same).2
  exact ⟨String.toList_inj.mp texts,after⟩

theorem numberText_digits (n : Nat) : numberText (.int n) = Nat.toDigits 10 n := by
  show (toString n).toList = Nat.toDigits 10 n
  simp

theorem comma_notMem (n : Nat) : ',' ∉ numberText (.int n) := by
  intro comma
  rw [numberText_digits] at comma
  have digit := Nat.isDigit_of_mem_toDigits (by decide) (by decide) comma
  cases digit

theorem numberText_injective {n n' : Nat} (same : numberText (.int n) = numberText (.int n')) : n = n' := by
  have read := congrArg (Nat.ofDigitChars 10 · 0) same
  simp only [numberText_digits,Nat.ofDigitChars_ten_toDigits] at read
  exact read

theorem number_append {n n' : Nat} (same : numberText (.int n) ++ ',' :: r = numberText (.int n') ++ ',' :: r') :
    n = n' ∧ r = r' := by
  have split := congrArg (Text.splitOnce ',') same
  rw [Text.splitOnce_append (comma_notMem n),Text.splitOnce_append (comma_notMem n')] at split
  obtain ⟨numbers,after⟩ := Prod.mk.inj (Option.some.inj split)
  exact ⟨numberText_injective numbers,after⟩

theorem textMember_append {k : String}
    (same : quoted k ++ ':' :: (quoted s ++ r) = quoted k ++ ':' :: (quoted s' ++ r')) : s = s' ∧ r = r' :=
  quoted_append (List.cons.inj (List.append_cancel_left same)).2

theorem numberMember_append {k : String} {n n' : Nat}
    (same : quoted k ++ ':' :: (numberText (.int n) ++ ',' :: r) =
      quoted k ++ ':' :: (numberText (.int n') ++ ',' :: r')) : n = n' ∧ r = r' :=
  number_append (List.cons.inj (List.append_cancel_left same)).2

theorem bytes_injective {x y : Json} (same : x.bytes = y.bytes) : x.compactChars = y.compactChars :=
  String.ofList_inj.mp (Text.utf8_injective same)

end Json

namespace Response
variable {e e' : Envelope}

def afterTrace (e : Envelope) : List Char :=
  match e.data with
  | none => ['}']
  | some data => ',' :: (Json.quoted "data" ++ ':' :: (data.compactChars ++ ['}']))

theorem envelope_chars (e : Envelope) : e.toJson.compactChars =
    '{' :: (Json.quoted "message" ++ ':' :: (Json.quoted e.message ++ ',' :: (Json.quoted "code" ++ ':' ::
      (Json.quoted e.code ++ ',' :: (Json.quoted "status" ++ ':' :: (Json.numberText (.int e.status) ++ ',' ::
        (Json.quoted "trace_id" ++ ':' :: (Json.quoted e.traceId ++ afterTrace e)))))))) := by
  unfold Envelope.toJson Envelope.members afterTrace
  cases e.data <;> simp [Json.compactChars,Json.compactMembers,Json.nat]

theorem reply_chars (r : Reply) : ∃ more, r.body.compactChars =
    '{' :: (Json.quoted "message" ++ ':' :: (Json.quoted r.message ++ ',' :: (Json.quoted "data" ++ more))) := by
  unfold Reply.body
  simp [Json.compactChars,Json.compactMembers]

def Bears (r : Response) (e : Envelope) : Prop := r.body = e.toJson.bytes

theorem bears_ofEnvelope (e : Envelope) : (ofEnvelope e).Bears e := by
  simp only [Bears,ofEnvelope,ofJson]

theorem afterTrace_injective (same : afterTrace e = afterTrace e') : e.data.map Json.compact = e'.data.map Json.compact := by
  unfold afterTrace at same
  cases data : e.data with
  | none =>
    cases data' : e'.data with
    | none => rfl
    | some _ => simp [data,data'] at same
  | some x =>
    cases data' : e'.data with
    | none => simp [data,data'] at same
    | some y =>
      rw [data,data'] at same
      have texts := (List.cons.inj (List.append_cancel_left (List.cons.inj same).2)).2
      exact congrArg (some ∘ String.ofList) (List.append_cancel_right texts)

structure Alike (e e' : Envelope) : Prop where
  message : e.message = e'.message
  code : e.code = e'.code
  status : e.status = e'.status
  traceId : e.traceId = e'.traceId
  data : e.data.map Json.compact = e'.data.map Json.compact

theorem Bears.alike {r : Response} (bears : r.Bears e) (bears' : r.Bears e') : Alike e e' := by
  have chars := Json.bytes_injective (bears.symm.trans bears')
  rw [envelope_chars,envelope_chars] at chars
  obtain ⟨messages,more⟩ := Json.textMember_append (List.cons.inj chars).2
  obtain ⟨codes,more⟩ := Json.textMember_append (List.cons.inj more).2
  obtain ⟨statuses,more⟩ := Json.numberMember_append (List.cons.inj more).2
  obtain ⟨traces,data⟩ := Json.textMember_append more
  exact ⟨messages,codes,statuses,traces,afterTrace_injective data⟩

theorem ofReply_bears (r : Reply) (e : Envelope) : ¬ (ofReply r).Bears e := by
  intro bears
  simp only [Bears,ofReply,ofJson] at bears
  have chars := Json.bytes_injective bears
  obtain ⟨more,reply⟩ := reply_chars r
  rw [reply,envelope_chars] at chars
  have messages := Json.textMember_append (List.cons.inj chars).2
  have labels := (Json.quoted_append (List.cons.inj messages.2).2).1
  exact absurd labels (by decide)

theorem timeout_bears (e : Envelope) : ¬ (ofText 504 "timeout").Bears e := by
  intro bears
  simp only [Bears,ofText,Json.bytes,Json.compact] at bears
  have chars : "timeout".toList = e.toJson.compactChars :=
    (congrArg String.toList (Text.utf8_injective bears)).trans String.toList_ofList
  rw [envelope_chars] at chars
  have first : "timeout".toList.head? = some 't' := by decide
  have brace : some 't' = some '\x7b' := first.symm.trans (congrArg List.head? chars)
  exact absurd brace (by decide)

end Response
end ServiceKit
