import ServiceKit.Proofs.Http.Detour
import ServiceKit.Proofs.Outcome

namespace ServiceKit.Request
open Outcome
variable {α : Type}

def Aside (r : Request) : Prop := r.method = "GET" ∨ r.method = "DELETE" ∧ r.body = []

inductive Reads (r : Request) (t : Schema α) : Part → α → Prop where
  | query (read : t.ofForm (Text.utf8 (r.uri.query.getD "")) = .ok v) : Reads r t .query v
  | headers (read : t.ofPairs r.headerPairs = .ok v) : Reads r t .headers v
  | aside (aside : r.Aside) (read : t.ofForm (Text.utf8 (r.uri.query.getD "")) = .ok v) : Reads r t .body v
  | json (taken : ¬ r.Aside) (declares : r.Declares "application/json") (read : t.ofJson r.body = .ok v) :
      Reads r t .body v
  | form (taken : ¬ r.Aside) (declares : r.Declares "application/x-www-form-urlencoded")
      (read : t.ofForm r.body = .ok v) : Reads r t .body v
  | parts (taken : ¬ r.Aside) (declares : r.Declares "multipart/form-data") {form : Form.Multipart}
      (parsed : r.multipart = .ok form) (read : t.ofPairs form.fields = .ok v) : Reads r t .body v

structure Plain (r : Request) : Prop where
  taken : ¬ r.Aside
  declares : r.Declares "text/plain"

variable {r : Request} {t : Schema α} {part : Part} {v : α} {errors : List Validation.FieldError}

theorem validated_eq (r : Request) (t : Schema α) (v : α) : r.validated t v =
    if t.errors r.mode v = [] then .ok v else .error (.validation (t.errors r.mode v)) := by
  unfold validated
  split
  · next none => rw [if_pos none]
  · next some => rw [if_neg some]

theorem mode_update : r.mode = .update ↔ r.method = "PATCH" := by simp [mode]

def reading (r : Request) (t : Schema α) : Part → Except DecodeError α
  | .query => (t.ofForm (Text.utf8 (r.uri.query.getD ""))).mapError .query
  | .headers => (t.ofPairs r.headerPairs).mapError .header
  | .body =>
    if r.readsQuery then (t.ofForm (Text.utf8 (r.uri.query.getD ""))).mapError .query
    else do r.readAs t (← r.mediaType).essence

theorem decode_plain (plain : r.Plain) (t : Schema α) : r.decode t .body = (t.ofPairs []).mapError .body := by
  obtain ⟨m,declared,text⟩ := plain.declares
  have taken : r.readsQuery ≠ true := mt readsQuery_iff.mp plain.taken
  rw [decode,decodeBody,if_neg taken,declared]
  exact if_pos text

theorem decode_reading (checked : ¬ (part = .body ∧ r.Plain)) (t : Schema α) :
    r.decode t part = (do r.validated t (← r.reading t part)) := by
  cases part with
  | query => rfl
  | headers => exact r.decodeHeaders_eq t
  | body =>
    by_cases aside : r.readsQuery = true
    · rw [decode,decodeBody,if_pos aside,reading,if_pos aside,decodeQuery]
    · rw [decode,decodeBody,if_neg aside,reading,if_neg aside]
      cases declared : r.mediaType with
      | error e => rfl
      | ok m =>
        have other : m.essence ≠ "text/plain" := fun text =>
          checked ⟨rfl,mt readsQuery_iff.mpr aside,m,declared,text⟩
        exact if_neg other

theorem readAs_ok {essence : String} (taken : ¬ r.Aside) (declares : r.Declares essence)
    (read : r.readAs t essence = .ok v) : Reads r t .body v := by
  unfold readAs at read
  split at read
  · exact .json taken declares (mapError_ok.mp read)
  · exact .form taken declares (mapError_ok.mp read)
  · obtain ⟨form,parsed,decoded⟩ := bind_ok.mp read
    rw [t.ofForm_encode] at decoded
    exact .parts taken declares parsed (mapError_ok.mp decoded)
  · cases read

theorem reading_ok : r.reading t part = .ok v ↔ Reads r t part v := by
  constructor
  · intro read
    cases part with
    | query => exact .query (mapError_ok.mp read)
    | headers => exact .headers (mapError_ok.mp read)
    | body =>
      rw [reading] at read
      split at read
      · next aside => exact .aside (readsQuery_iff.mp aside) (mapError_ok.mp read)
      · next taken =>
        obtain ⟨m,declared,decoded⟩ := bind_ok.mp read
        exact readAs_ok (mt readsQuery_iff.mpr taken) ⟨m,declared,rfl⟩ decoded
  · have taking {essence : String} (taken : ¬ r.Aside) (declares : r.Declares essence) :
        r.reading t .body = r.readAs t essence := by
      obtain ⟨m,declared,rfl⟩ := declares
      rw [reading,if_neg (mt readsQuery_iff.mp taken),declared]
      rfl
    intro reads
    cases reads with
    | query read => exact mapError_ok.mpr read
    | headers read => exact mapError_ok.mpr read
    | aside aside read =>
      rw [reading,if_pos (readsQuery_iff.mpr aside)]
      exact mapError_ok.mpr read
    | json taken declares read => exact (taking taken declares).trans (mapError_ok.mpr read)
    | form taken declares read => exact (taking taken declares).trans (mapError_ok.mpr read)
    | parts taken declares parsed read =>
      rw [taking taken declares,readAs,parsed]
      show (t.ofForm _).mapError _ = _
      rw [t.ofForm_encode]
      exact mapError_ok.mpr read

theorem mapError_other {ε : Type} {f : ε → DecodeError} {x : Except ε α} (other : ∀ e, f e ≠ .validation errors) :
    x.mapError f ≠ .error (.validation errors) := by
  cases x with
  | ok => exact fun same => nomatch same
  | error e => exact fun same => other e (Except.error.inj same)

theorem multipart_other (r : Request) : r.multipart ≠ .error (.validation errors) := by
  rcases r.multipart_inv with ⟨_,_,parsed,_⟩ | ⟨e,failed,other⟩
  · rw [parsed]
    nofun
  · rw [failed]
    exact fun same => other errors (Except.error.inj same)

theorem mediaType_other (r : Request) : r.mediaType ≠ .error (.validation errors) := by
  unfold mediaType
  intro same
  split at same
  · cases same
  · split at same <;> cases same

theorem readAs_other (r : Request) (t : Schema α) (essence : String) :
    r.readAs t essence ≠ .error (.validation errors) := by
  unfold readAs
  split
  · exact mapError_other nofun
  · exact mapError_other nofun
  · intro failed
    rcases bind_error.mp failed with unparsed | ⟨form,_,unread⟩
    · exact multipart_other r unparsed
    · exact mapError_other nofun unread
  · nofun

theorem reading_other (r : Request) (t : Schema α) (part : Part) : r.reading t part ≠ .error (.validation errors) := by
  cases part with
  | query => exact mapError_other nofun
  | headers => exact mapError_other nofun
  | body =>
    rw [reading]
    split
    · exact mapError_other nofun
    · intro failed
      rcases bind_error.mp failed with undeclared | ⟨m,_,unread⟩
      · exact mediaType_other r undeclared
      · exact readAs_other r t m.essence unread

theorem Reads.checked (reads : Reads r t part v) : ¬ (part = .body ∧ r.Plain) := by
  rintro ⟨rfl,plain⟩
  obtain ⟨m,declared,text⟩ := plain.declares
  have only {essence : String} (declares : r.Declares essence) : essence = "text/plain" := by
    obtain ⟨m',declared',rfl⟩ := declares
    cases declared.symm.trans declared'
    exact text
  cases reads with
  | aside aside => exact plain.taken aside
  | json taken declares => exact absurd (only declares) (by decide)
  | form taken declares => exact absurd (only declares) (by decide)
  | parts taken declares => exact absurd (only declares) (by decide)

theorem Reads.decode_eq (reads : Reads r t part v) : r.decode t part = r.validated t v := by
  rw [decode_reading reads.checked,reading_ok.mpr reads]
  rfl

theorem decode_ok : r.decode t part = .ok v ↔
    Reads r t part v ∧ t.errors r.mode v = [] ∨ (part = .body ∧ r.Plain) ∧ t.ofPairs [] = .ok v := by
  constructor
  · intro decoded
    by_cases plain : part = .body ∧ r.Plain
    · obtain ⟨rfl,text⟩ := plain
      rw [decode_plain text] at decoded
      exact .inr ⟨⟨rfl,text⟩,mapError_ok.mp decoded⟩
    · rw [decode_reading plain] at decoded
      obtain ⟨w,read,passed⟩ := bind_ok.mp decoded
      rw [validated_eq] at passed
      split at passed
      · next none =>
        cases passed
        exact .inl ⟨reading_ok.mp read,none⟩
      · cases passed
  · rintro (⟨reads,none⟩ | ⟨⟨rfl,plain⟩,read⟩)
    · rw [reads.decode_eq,validated_eq,if_pos none]
    · rw [decode_plain plain]
      exact mapError_ok.mpr read

theorem decode_invalid : r.decode t part = .error (.validation errors) ↔
    ∃ v, Reads r t part v ∧ t.errors r.mode v = errors ∧ errors ≠ [] := by
  constructor
  · intro decoded
    by_cases plain : part = .body ∧ r.Plain
    · obtain ⟨rfl,text⟩ := plain
      rw [decode_plain text] at decoded
      exact absurd decoded (mapError_other nofun)
    · rw [decode_reading plain] at decoded
      rcases bind_error.mp decoded with unread | ⟨w,read,failed⟩
      · exact absurd unread (reading_other r t part)
      · rw [validated_eq] at failed
        split at failed
        · cases failed
        · next some =>
          cases failed
          exact ⟨w,reading_ok.mp read,rfl,some⟩
  · rintro ⟨w,reads,rfl,some⟩
    rw [reads.decode_eq,validated_eq,if_neg some]

-- Whatever a request is decoded to has passed validation in the mode of its method, unless it is what a plain text stands
-- for; a value that fails is answered by all that fails in it, as unprocessable; and a request without a body of its own is
-- decoded as its query, whatever its headers and its body are.
theorem decode_checks (r : Request) (t : Schema α) :
    (∀ part v, r.decode t part = .ok v ↔
      Reads r t part v ∧ t.errors r.mode v = [] ∨ (part = .body ∧ r.Plain) ∧ t.ofPairs [] = .ok v) ∧
      (∀ part errors, r.decode t part = .error (.validation errors) ↔
        ∃ v, Reads r t part v ∧ t.errors r.mode v = errors ∧ errors ≠ []) ∧
      (r.mode = .update ↔ r.method = "PATCH") ∧
      (∀ errors, (DecodeError.validation errors).toEnvelope =
        ⟨"validation error",Code.validationError,422,"",some (Validation.errorsJson errors)⟩) ∧
      (∀ headers body, r.method = "GET" →
        { r with headers := headers,body := body }.decode t .body = r.decode t .query) ∧
      ∀ headers, r.method = "DELETE" → { r with headers := headers,body := [] }.decode t .body = r.decode t .query := by
  refine ⟨fun _ _ => decode_ok,fun _ _ => decode_invalid,mode_update,fun _ => rfl,?_,?_⟩
  · intro headers body get
    let other := { r with headers := headers,body := body }
    have aside : other.readsQuery = true := readsQuery_iff.mpr (.inl get)
    exact (decodeBody_aside aside t).trans (decodeQuery_congr rfl rfl t)
  · intro headers delete
    let other := { r with headers := headers,body := [] }
    have aside : other.readsQuery = true := readsQuery_iff.mpr (.inr ⟨delete,rfl⟩)
    exact (decodeBody_aside aside t).trans (decodeQuery_congr rfl rfl t)

def asking : Request where
  method := "GET"
  uri := ⟨none,"","/v1/notes",some "q=1"⟩
  headers := [("content-type",Text.utf8 "text/plain")]
  body := Text.utf8 "q=2"
  params := []
  remote := none
  limits := {}

theorem asking_query : asking.method = "GET" ∧
    asking.decode (Shape.dictionary.schema []) .body = asking.decode (Shape.dictionary.schema []) .query := by
  obtain ⟨_,_,_,_,same,_⟩ := asking.decode_checks (Shape.dictionary.schema [])
  exact ⟨rfl,same asking.headers asking.body rfl⟩

end ServiceKit.Request
