import ServiceKit.Proofs.Runs
import ServiceKit.Proofs.Testing.Forms

namespace ServiceKit

namespace Text

theorem lowerAscii_small : ∀ n < 128, lowerAscii (lowerAscii (Char.ofNat n)) = lowerAscii (Char.ofNat n) := by decide

theorem lowerAscii_twice (c : Char) : lowerAscii (lowerAscii c) = lowerAscii c := by
  by_cases ascii : c.toNat < 128
  · exact ascii_forall c ascii lowerAscii_small
  · have kept : lowerAscii c = c := by
      refine if_neg ?_
      rw [Bool.and_eq_true,decide_eq_true_eq,decide_eq_true_eq]
      rintro ⟨_,most⟩
      exact ascii (Nat.lt_of_le_of_lt most (by decide))
    rw [kept,kept]

theorem lowered_twice (s : String) : lowered (lowered s) = lowered s := by
  have twice : lowerAscii ∘ lowerAscii = lowerAscii := funext lowerAscii_twice
  simp [lowered,twice]

end Text

namespace Headers
variable {h : Headers} {name other : String} {value : Text.Bytes}

theorem get?_set_other (h : Headers) (different : other ≠ name) (value : Text.Bytes) :
    (h.set name value).get? other = h.get? other := by
  rw [get?_eq_head?,get?_eq_head?,all_set_other h different]

-- Names in lower case, each of them once.
structure Tidy (h : Headers) : Prop where
  once : (h.map (·.1)).Nodup
  lower : ∀ e ∈ h, Text.lowered e.1 = e.1

theorem mem_set {e : String × Text.Bytes} (inside : e ∈ h.set name value) : e = (name,value) ∨ e ∈ h ∧ e.1 ≠ name := by
  induction h with
  | nil => exact .inl (List.mem_singleton.mp inside)
  | cons head rest ih =>
    rw [set] at inside
    split at inside
    · next here =>
      rcases List.mem_cons.mp inside with new | old
      · exact .inl new
      · obtain ⟨old,other⟩ := List.mem_filter.mp old
        exact .inr ⟨List.mem_cons_of_mem _ old,bne_iff_ne.mp other⟩
    · next elsewhere =>
      rcases List.mem_cons.mp inside with rfl | later
      · exact .inr ⟨List.mem_cons_self,elsewhere⟩
      · rcases ih later with new | ⟨old,other⟩
        · exact .inl new
        · exact .inr ⟨List.mem_cons_of_mem _ old,other⟩

theorem Tidy.set (tidy : Tidy h) (lower : Text.lowered name = name) (value : Text.Bytes) : Tidy (h.set name value) where
  once := by
    have once := tidy.once
    clear tidy
    induction h with
    | nil => simp [Headers.set]
    | cons head rest ih =>
      rw [List.map_cons,List.nodup_cons] at once
      rw [Headers.set]
      split
      · rw [List.map_cons,List.nodup_cons]
        refine ⟨?_,once.2.sublist (List.filter_sublist.map _)⟩
        simp
      · next elsewhere =>
        rw [List.map_cons,List.nodup_cons]
        refine ⟨?_,ih once.2⟩
        intro inside
        obtain ⟨e,mem,same⟩ := List.mem_map.mp inside
        rcases mem_set mem with rfl | ⟨old,_⟩
        · exact elsewhere same.symm
        · exact once.1 (List.mem_map.mpr ⟨e,old,same⟩)
  lower := by
    intro e inside
    rcases mem_set inside with rfl | ⟨old,_⟩
    · exact lower
    · exact tidy.lower e old

end Headers

namespace Testing
open Text (Bytes)
variable {b : Builder} {c : BuildCall} {calls : List BuildCall} {method target name value : String} {uri : Http.Uri}

namespace BuildCall

def setting? : BuildCall → Option (String × String)
  | .header name value => some (name,value)
  | .contentType value => some (Response.contentType,value)
  | .bearer token => some ("authorization","Bearer " ++ token)
  | .json _ | .unencodable _ => some (Response.contentType,"application/json")
  | .form _ => some (Response.contentType,"application/x-www-form-urlencoded")
  | _ => none

def content? : BuildCall → Option (Except TestError Bytes)
  | .body bs => some (.ok bs)
  | .json value => some (.ok value.bytes)
  | .unencodable message => some (.error (.json message))
  | .form value => some ((Form.encodeJson value).mapError fun e => .requestBuild ("form encoding failed: " ++ e.message))
  | _ => none

def remote? : BuildCall → Option String
  | .remote address => some address
  | _ => none

end BuildCall

def sent (given : String × String) : Except TestError (String × Bytes) :=
  match Http.headerName? given.1 with
  | none => .error (.invalidHeader (given.1 ++ ": invalid HTTP header name"))
  | some name =>
    match Http.headerValue? (Text.utf8 given.2) with
    | none => .error (.invalidHeader (name ++ ": failed to parse header value"))
    | some value => .ok (name,value)

def fault? {α : Type} : Except TestError α → Option TestError
  | .error e => some e
  | .ok _ => none

namespace BuildCall

def header? (c : BuildCall) : Option (String × Bytes) := c.setting?.bind fun given => (sent given).toOption

def body? (c : BuildCall) : Option Bytes := c.content?.bind Except.toOption

def error? (c : BuildCall) : Option TestError :=
  (c.content?.bind fault?).or (c.setting?.bind fun given => fault? (sent given))

def valueOf? (name : String) (c : BuildCall) : Option Bytes :=
  c.header?.bind fun e => if e.1 = Text.lowered name then some e.2 else none

end BuildCall

structure Called (b : Builder) (c : BuildCall) (after : Builder) : Prop where
  method : after.method = b.method
  headers : after.headers = c.header?.elim b.headers fun e => b.headers.set e.1 e.2
  body : after.body = c.body?.or b.body
  remote : after.remote = c.remote?.or b.remote
  error : after.error = b.error.or c.error?

theorem header_eq (b : Builder) (name value : String) : b.header name value =
    { b with
      headers := ((sent (name,value)).toOption).elim b.headers fun e => b.headers.set e.1 e.2
      error := b.error.or (fault? (sent (name,value))) } := by
  have kept : b.error = b.error.or none := (Option.or_none ..).symm
  unfold Builder.header sent
  cases Http.headerName? name with
  | none => rfl
  | some lower =>
    cases Http.headerValue? (Text.utf8 value) with
    | none => rfl
    | some bytes => simp only [Except.toOption,fault?,Option.elim_some,← kept]

theorem called_header (b : Builder) {c : BuildCall} (setting : c.setting? = some (name,value))
    (content : c.content? = none) (remote : c.remote? = none) (call : b.call c = b.header name value) : Called b c (b.call c) := by
  have called := call.trans (header_eq b name value)
  constructor
  · rw [called]
  · rw [called,BuildCall.header?,setting]
    rfl
  · rw [called,BuildCall.body?,content]
    rfl
  · rw [called,remote]
    rfl
  · rw [called,BuildCall.error?,content,setting]
    rfl

theorem called_content (b : Builder) {c : BuildCall} {made : Except TestError Bytes}
    (setting : c.setting? = some (Response.contentType,value)) (content : c.content? = some made)
    (remote : c.remote? = none) (call : b.call c =
      ({ b with body := made.toOption.or b.body,error := b.error.or (fault? made) } : Builder).contentType value) :
    Called b c (b.call c) := by
  have called := call.trans (header_eq _ Response.contentType value)
  constructor
  · rw [called]
  · rw [called,BuildCall.header?,setting]
    rfl
  · rw [called,BuildCall.body?,content]
    rfl
  · rw [called,remote]
    rfl
  · rw [called,BuildCall.error?,content,setting]
    exact Option.or_assoc ..

theorem form_eq (b : Builder) (value : Json) : b.form value =
    let made := (Form.encodeJson value).mapError fun e => TestError.requestBuild ("form encoding failed: " ++ e.message)
    { b with body := made.toOption.or b.body,error := b.error.or (fault? made) } := by
  have kept : b.error = b.error.or none := (Option.or_none ..).symm
  unfold Builder.form
  cases Form.encodeJson value with
  | ok bs => simp only [Except.mapError,Except.toOption,Option.some_or,fault?,← kept]
  | error e => rfl

theorem call_called (b : Builder) (c : BuildCall) : Called b c (b.call c) := by
  have unfailed : b.error = b.error.or none := (Option.or_none ..).symm
  cases c with
  | header name value => exact called_header b rfl rfl rfl rfl
  | contentType value => exact called_header b rfl rfl rfl rfl
  | bearer token => exact called_header b rfl rfl rfl rfl
  | remote address => exact ⟨rfl,rfl,rfl,rfl,unfailed⟩
  | body bs => exact ⟨rfl,rfl,rfl,rfl,unfailed⟩
  | part item => exact ⟨rfl,rfl,rfl,rfl,unfailed⟩
  | json value =>
    refine called_content b rfl rfl rfl ?_
    simp only [Builder.call,Except.toOption,Option.some_or,fault?,← unfailed]
  | unencodable message => exact called_content b rfl rfl rfl rfl
  | form value => exact called_content b rfl rfl rfl (congrArg (Builder.contentType · _) (form_eq b value))

theorem calls_method (b : Builder) (calls : List BuildCall) : (calls.foldl Builder.call b).method = b.method := by
  induction calls generalizing b with
  | nil => rfl
  | cons c calls ih => exact (ih (b.call c)).trans (call_called b c).method

theorem calls_error (b : Builder) (calls : List BuildCall) :
    (calls.foldl Builder.call b).error = b.error.or (calls.findSome? BuildCall.error?) :=
  foldl_first (fun b c => (call_called b c).error) b calls

theorem calls_remote (b : Builder) (calls : List BuildCall) :
    (calls.foldl Builder.call b).remote = ((calls.filterMap BuildCall.remote?).getLast?).or b.remote :=
  foldl_last (fun b c => (call_called b c).remote) b calls

theorem calls_body (b : Builder) (calls : List BuildCall) :
    (calls.foldl Builder.call b).body = ((calls.filterMap BuildCall.body?).getLast?).or b.body :=
  foldl_last (fun b c => (call_called b c).body) b calls

theorem call_value (b : Builder) (c : BuildCall) (name : String) : (b.call c).headers.get? (Text.lowered name) =
    (c.valueOf? name).or (b.headers.get? (Text.lowered name)) := by
  rw [(call_called b c).headers,BuildCall.valueOf?]
  cases c.header? with
  | none => rfl
  | some e =>
    by_cases same : e.1 = Text.lowered name
    · simp only [Option.elim_some,Option.bind_some,if_pos same,Option.some_or]
      rw [← same]
      exact Headers.get?_set_same ..
    · simp only [Option.elim_some,Option.bind_some,if_neg same,Option.none_or]
      exact Headers.get?_set_other _ (Ne.symm same) _

theorem calls_value (b : Builder) (calls : List BuildCall) (name : String) :
    (calls.foldl Builder.call b).headers.get? (Text.lowered name) =
      ((calls.filterMap (BuildCall.valueOf? name)).getLast?).or (b.headers.get? (Text.lowered name)) := by
  let part (b : Builder) : Option Bytes := b.headers.get? (Text.lowered name)
  have kept (b : Builder) (c : BuildCall) : part (b.call c) = (c.valueOf? name).or (part b) := call_value b c name
  exact foldl_last kept b calls

theorem sent_eq {given : String × String} {e : String × Bytes} (made : sent given = .ok e) :
    e = (Text.lowered given.1,Text.utf8 given.2) := by
  unfold sent at made
  split at made
  · cases made
  · next named =>
    split at made
    · cases made
    · next value =>
      obtain ⟨_,lower⟩ := Option.ite_none_right_eq_some.mp named
      obtain ⟨_,bytes⟩ := Option.ite_none_right_eq_some.mp value
      cases lower
      cases bytes
      cases made
      rfl

theorem header?_eq {e : String × Bytes} (set : c.header? = some e) :
    ∃ given, c.setting? = some given ∧ e = (Text.lowered given.1,Text.utf8 given.2) := by
  obtain ⟨given,setting,made⟩ := Option.bind_eq_some_iff.mp set
  refine ⟨given,setting,sent_eq ?_⟩
  cases sending : sent given with
  | error _ => rw [sending] at made; cases made
  | ok e' => rw [sending] at made; cases made; rfl

theorem calls_tidy (b : Builder) (calls : List BuildCall) (tidy : b.headers.Tidy) :
    (calls.foldl Builder.call b).headers.Tidy := by
  induction calls generalizing b with
  | nil => exact tidy
  | cons c calls ih =>
    apply ih
    rw [(call_called b c).headers]
    cases set : c.header? with
    | none => exact tidy
    | some e =>
      obtain ⟨given,_,rfl⟩ := header?_eq set
      exact tidy.set (Text.lowered_twice given.1) _

theorem withParts_error (b : Builder) : b.withParts.error = b.error := by
  by_cases none_ : b.parts = []
  · rw [Builder.withParts,if_pos (by simpa using none_)]
  · rw [withParts_eq none_]

theorem withParts_uri (b : Builder) : b.withParts.uri = b.uri := by
  by_cases none_ : b.parts = []
  · rw [Builder.withParts,if_pos (by simpa using none_)]
  · rw [withParts_eq none_]

theorem build_failed {e : TestError} (failed : b.error = some e) : b.build = .error e := by
  simp only [Builder.build,withParts_error,failed]

theorem build_astray {e : Http.UriError} (unfailed : b.error = none) (unparsed : Http.Uri.parse b.uri = .error e) :
    b.build = .error (.requestBuild ("invalid URI " ++ b.uri ++ ": " ++ e.message)) := by
  simp only [Builder.build,withParts_error,withParts_uri,unfailed,unparsed]

theorem build_bare (bare : b.parts = []) (unfailed : b.error = none) (parsed : Http.Uri.parse b.uri = .ok uri) :
    b.build = .ok ⟨b.method,uri,b.headers,b.body.getD [],[],b.remote,{},none⟩ := by
  have same : b.withParts = b := if_pos (by simpa using bare)
  simp only [Builder.build,same,unfailed,parsed]

-- Of all that was set, a request carries what was set last; parts take the place of any other body, and of its type.
structure Carries (calls : List BuildCall) (r : Request) : Prop where
  remote : r.remote = (calls.filterMap BuildCall.remote?).getLast?
  tidy : r.headers.Tidy
  header : ∀ name, calls.filterMap BuildCall.item? = [] ∨ Text.lowered name ≠ Response.contentType →
    r.headers.get? (Text.lowered name) = (calls.filterMap (BuildCall.valueOf? name)).getLast?
  body : calls.filterMap BuildCall.item? = [] → r.body = ((calls.filterMap BuildCall.body?).getLast?).getD []
  form : calls.filterMap BuildCall.item? ≠ [] → r.headers.get? Response.contentType = some (Text.utf8 formType) ∧
    r.body = Form.Multipart.encode boundary (calls.filterMap BuildCall.item?)

theorem built_carries (method : String) (unfailed : calls.findSome? BuildCall.error? = none)
    (parsed : Http.Uri.parse target = .ok uri) : ∃ r, (calls.foldl Builder.call (.new method target)).build = .ok r ∧
      r.method = method ∧ r.uri = uri ∧ Carries calls r := by
  let start := Builder.new method target
  let b := calls.foldl Builder.call start
  have parts : b.parts = calls.filterMap BuildCall.item? := (calls_kept start calls).1
  have kept : b.uri = target := (calls_kept start calls).2
  have methods : b.method = method := calls_method start calls
  have clean : b.error = none := (calls_error start calls).trans unfailed
  have tidy : b.headers.Tidy := calls_tidy start calls ⟨List.nodup_nil,nofun⟩
  have remote : b.remote = (calls.filterMap BuildCall.remote?).getLast? := by
    rw [calls_remote start calls]
    exact Option.or_none ..
  have body : b.body = (calls.filterMap BuildCall.body?).getLast? := by
    rw [calls_body start calls]
    exact Option.or_none ..
  have header : ∀ name, b.headers.get? (Text.lowered name) =
      (calls.filterMap (BuildCall.valueOf? name)).getLast? := by
    intro name
    rw [calls_value start calls name]
    exact Option.or_none ..
  rw [← kept] at parsed
  by_cases bare : b.parts = []
  · refine ⟨_,build_bare bare clean parsed,methods,rfl,remote,tidy,fun name _ => header name,?_,?_⟩
    · intro _
      exact congrArg (Option.getD · []) body
    · intro filled
      exact absurd (parts.symm.trans bare) filled
  · refine ⟨_,build_parts bare clean parsed,methods,rfl,remote,tidy.set (by decide) _,?_,?_,?_⟩
    · intro name other
      rcases other with none_ | other
      · exact absurd (parts.trans none_) bare
      · exact (Headers.get?_set_other _ other _).trans (header name)
    · intro none_
      exact absurd (parts.trans none_) bare
    · intro _
      exact ⟨Headers.get?_set_same ..,congrArg (Form.Multipart.encode boundary) parts⟩

-- The first fault is reported, whatever is called after it; without one the target is read, and then all that was asked
-- for is there. A client's default headers are calls before all others.
theorem build_settles (method target : String) (calls : List BuildCall) :
    (∀ e, calls.findSome? BuildCall.error? = some e →
      (calls.foldl Builder.call (.new method target)).build = .error e) ∧
    (calls.findSome? BuildCall.error? = none →
      (∀ e, Http.Uri.parse target = .error e → (calls.foldl Builder.call (.new method target)).build =
        .error (.requestBuild ("invalid URI " ++ target ++ ": " ++ e.message))) ∧
      ∀ uri, Http.Uri.parse target = .ok uri → ∃ r, (calls.foldl Builder.call (.new method target)).build = .ok r ∧
        r.method = method ∧ r.uri = uri ∧ Carries calls r) ∧
    ∀ client : Client, calls.foldl Builder.call (client.request method target) =
      (client.defaults.map (fun h => BuildCall.header h.1 h.2) ++ calls).foldl Builder.call (.new method target) := by
  have errors := calls_error (.new method target) calls
  refine ⟨?_,?_,?_⟩
  · intro e first
    exact build_failed (errors.trans first)
  · intro unfailed
    refine ⟨?_,?_⟩
    · intro e unparsed
      have kept : (calls.foldl Builder.call (.new method target)).uri = target := (calls_kept _ calls).2
      rw [← kept] at unparsed
      have astray := build_astray (errors.trans unfailed) unparsed
      rwa [kept] at astray
    · intro uri parsed
      exact built_carries method unfailed parsed
  · intro client
    rw [List.foldl_append,List.foldl_map]
    rfl

example : ([.header "a b" "x",.json .null,.unencodable "key must be a string"].foldl Builder.call (.new "GET" "")).build =
    .error (.invalidHeader "a b: invalid HTTP header name") := rfl

end Testing
end ServiceKit
