import ServiceKit.Http.Request
import ServiceKit.Proofs.Form.Urlencoded
import ServiceKit.Proofs.Http.Headers
import ServiceKit.Proofs.Keyed

namespace ServiceKit
variable {α : Type} {name s : String} {value : Text.Bytes}

namespace Headers
variable {h : Headers}

theorem nodup_eraseDups (names : List String) : names.eraseDups.Nodup := by
  cases names with
  | nil => exact List.Pairwise.nil
  | cons first rest =>
    rw [List.eraseDups_cons]
    refine List.nodup_cons.mpr ⟨?_,nodup_eraseDups (rest.filter fun name => !name == first)⟩
    simp
termination_by names.length
decreasing_by exact Nat.lt_succ_of_le (List.length_filter_le ..)

theorem readable_eq_some_iff : readable value = some s ↔ value = ofText s ∧ Readable (ofText s) := by
  rw [readable_iff]
  constructor
  · rintro ⟨visible,rfl⟩
    have bytes : ofText (String.ofList (value.map charOf)) = value := Text.utf8_ascii visible.small
    exact ⟨bytes.symm,bytes.symm ▸ visible⟩
  · rintro ⟨rfl,visible⟩
    exact ⟨visible,Text.utf8_injective (Text.utf8_ascii visible.small).symm⟩

theorem text?_eq_some_iff : h.text? name = some s ↔ (h.all name).head? = some (ofText s) ∧ Readable (ofText s) := by
  rw [text?,get?_eq_head?,Option.bind_eq_some_iff]
  constructor
  · rintro ⟨value,first,read⟩
    obtain ⟨rfl,visible⟩ := readable_eq_some_iff.mp read
    exact ⟨first,visible⟩
  · rintro ⟨first,visible⟩
    exact ⟨_,first,readable_eq_some_iff.mpr ⟨rfl,visible⟩⟩

theorem mem_names (read : h.text? name = some s) : name ∈ h.names := by
  obtain ⟨value,first,_⟩ := Option.bind_eq_some_iff.mp read
  obtain ⟨e,found,_⟩ := Option.map_eq_some_iff.mp first
  have same := List.find?_some found
  rw [names,List.mem_eraseDups,← beq_iff_eq.mp same]
  exact List.mem_map_of_mem (List.mem_of_find?_eq_some found)

end Headers

theorem Schema.ofForm_encode (t : Schema α) (pairs : List (String × String)) :
    t.ofForm (Form.encode pairs) = t.ofPairs pairs := by
  rw [Schema.ofForm,Form.decode_encode]

theorem Shape.ofPairs_schema (c : Catalog) (s : Shape) (pairs : List (String × String)) :
    (s.schema c).ofPairs pairs = (Record.ofPairs c pairs s).mapError (·.message) := rfl

theorem Record.ofPairs_dictionary (c : Catalog) {pairs : List (String × String)} (apart : (pairs.map (·.1)).Nodup) :
    ∃ entries, Record.ofPairs c pairs .dictionary = .ok (.dictionary entries) ∧ entries.Perm pairs := by
  let written (p : String × String) : String × Json := (p.1,.string p.2)
  let text (m : String × Json) : String × String := (m.1,m.2.text?.getD "")
  have names : ((pairs.map written).map (·.1)).Nodup := by
    rw [List.map_map]
    exact apart
  have back : (pairs.map written).map text = pairs := by
    rw [List.map_map]
    exact List.map_id _
  refine ⟨_,rfl,?_⟩
  have perm := (Members.perm_ofPairs names).map text
  rwa [back] at perm

namespace Request
variable {r r' : Request} {t : Schema α} {form : Form.Multipart}

theorem mem_headerPairs : (name,s) ∈ r.headerPairs ↔ r.headers.text? name = some s := by
  simp only [headerPairs,List.mem_filterMap,Option.map_eq_some_iff,Prod.mk.injEq]
  constructor
  · rintro ⟨_,_,_,read,rfl,rfl⟩
    exact read
  · intro read
    exact ⟨name,Headers.mem_names read,s,read,rfl,rfl⟩

theorem nodup_headerPairs (r : Request) : (r.headerPairs.map (·.1)).Nodup := by
  refine List.pairwise_map.mpr (List.pairwise_filterMap.mpr ((Headers.nodup_eraseDups _).imp ?_))
  intro a b other p first q second
  obtain ⟨_,_,rfl⟩ := Option.map_eq_some_iff.mp first
  obtain ⟨_,_,rfl⟩ := Option.map_eq_some_iff.mp second
  exact other

theorem decodeHeaders_eq (r : Request) (t : Schema α) :
    r.decodeHeaders t = (do r.validated t (← (t.ofPairs r.headerPairs).mapError .header)) := by
  rw [decodeHeaders,t.ofForm_encode]

theorem decode_dictionary (c : Catalog) (r : Request) :
    ∃ entries, r.decode (Shape.dictionary.schema c) .headers = .ok (.dictionary entries) ∧ entries.Perm r.headerPairs := by
  obtain ⟨entries,read,perm⟩ := Record.ofPairs_dictionary c r.nodup_headerPairs
  have map : (Shape.dictionary.schema c).ofPairs r.headerPairs = .ok (.dictionary entries) := by
    rw [Shape.ofPairs_schema,read]
    rfl
  refine ⟨entries,?_,perm⟩
  rw [decode,decodeHeaders_eq,map]
  rfl

def Declares (r : Request) (essence : String) : Prop := ∃ m, r.mediaType = .ok m ∧ m.essence = essence

theorem readsQuery_iff : r.readsQuery = true ↔ r.method = "GET" ∨ r.method = "DELETE" ∧ r.body = [] := by
  simp [readsQuery]

theorem validated_congr (method : r'.method = r.method) (t : Schema α) : r'.validated t = r.validated t := by
  funext v
  rw [validated,validated,mode,mode,method]

theorem decodeQuery_congr (method : r'.method = r.method) (uri : r'.uri = r.uri) (t : Schema α) :
    r'.decodeQuery t = r.decodeQuery t := by
  rw [decodeQuery,decodeQuery,uri,validated_congr method]

theorem decodeBody_aside (aside : r.readsQuery = true) (t : Schema α) : r.decodeBody t = r.decodeQuery t := if_pos aside

theorem decodeBody_taken {essence : String} (taken : r.readsQuery ≠ true) (declares : r.Declares essence)
    (checked : essence ≠ "text/plain") (t : Schema α) : r.decodeBody t = (do r.validated t (← r.readAs t essence)) := by
  obtain ⟨m,declared,rfl⟩ := declares
  rw [decodeBody,if_neg taken,declared]
  exact if_neg checked

theorem multipart_inv (r : Request) :
    (∃ boundary form, r.multipart = .ok form ∧
      Form.Multipart.readBody boundary r.limits.maxFields r.body = .ok form) ∨
      ∃ e, r.multipart = .error e ∧ ∀ errors, e ≠ .validation errors := by
  unfold multipart
  split
  · exact .inr ⟨_,rfl,by simp⟩
  · split
    · exact .inr ⟨_,rfl,by simp⟩
    · split
      · exact .inr ⟨_,rfl,by simp⟩
      · split
        · exact .inr ⟨_,rfl,by simp⟩
        · split
          · next form read => exact .inl ⟨_,form,rfl,read⟩
          · exact .inr ⟨_,rfl,by simp⟩

theorem multipart_nonempty (parsed : r.multipart = .ok form) : r.body ≠ [] := by
  intro empty
  rcases r.multipart_inv with ⟨_,_,_,read⟩ | ⟨_,failed,_⟩
  · rw [empty] at read
    cases read
  · cases parsed.symm.trans failed

-- A request that has as a form body the texts that another one has as parts.
structure Retells (r' r : Request) (form : Form.Multipart) : Prop where
  parsed : r.multipart = .ok form
  parts : r.Declares "multipart/form-data"
  texts : r'.Declares "application/x-www-form-urlencoded"
  method : r'.method = r.method
  uri : r'.uri = r.uri
  body : r'.body = Form.encode form.fields

theorem Retells.decode_body (retells : Retells r' r form) (t : Schema α)
    (some : r.method = "DELETE" → form.fields ≠ []) : r.decode t .body = r'.decode t .body := by
  obtain ⟨parsed,parts,texts,method,uri,body⟩ := retells
  rw [decode,decode]
  by_cases get : r.method = "GET"
  · rw [decodeBody_aside (readsQuery_iff.mpr (.inl get)),decodeBody_aside (readsQuery_iff.mpr (.inl (method.trans get))),
      decodeQuery_congr method uri]
  · have taken : r.readsQuery ≠ true := by
      rw [ne_eq,readsQuery_iff]
      rintro (same | ⟨_,empty⟩)
      · exact get same
      · exact multipart_nonempty parsed empty
    have taken' : r'.readsQuery ≠ true := by
      rw [ne_eq,readsQuery_iff,method,body]
      rintro (same | ⟨delete,empty⟩)
      · exact get same
      · exact some delete (Form.encode_eq_nil empty)
    have read : r.readAs t "multipart/form-data" = (t.ofPairs form.fields).mapError .body := by
      rw [readAs,parsed,← t.ofForm_encode]
      rfl
    have read' : r'.readAs t "application/x-www-form-urlencoded" = (t.ofPairs form.fields).mapError .body := by
      rw [readAs,body,t.ofForm_encode]
    rw [decodeBody_taken taken parts (by decide),decodeBody_taken taken' texts (by decide),read,read',validated_congr method]

-- What is written as a form is read as it was, so that headers read as a map are the names whose first values are readable,
-- each with that value, and a form of parts decodes to the value or the error that the form body of its texts decodes to.
theorem detour_lossless :
    (∀ pairs, Form.decode (Form.encode pairs) = pairs) ∧
      (∀ (c : Catalog) (r : Request), ∃ entries,
        r.decode (Shape.dictionary.schema c) .headers = .ok (.dictionary entries) ∧ (entries.map (·.1)).Nodup ∧
        ∀ name s, (name,s) ∈ entries ↔
          (r.headers.all name).head? = some (Headers.ofText s) ∧ Headers.Readable (Headers.ofText s)) ∧
      ∀ {α : Type} (t : Schema α) (r r' : Request) (form : Form.Multipart), Retells r' r form →
        (r.method = "DELETE" → form.fields ≠ []) → r.decode t .body = r'.decode t .body := by
  refine ⟨Form.decode_encode,?_,fun t r r' form retells some => retells.decode_body t some⟩
  intro c r
  obtain ⟨entries,read,perm⟩ := decode_dictionary c r
  refine ⟨entries,read,(perm.map (·.1)).nodup_iff.mpr r.nodup_headerPairs,?_⟩
  intro name s
  rw [perm.mem_iff,mem_headerPairs,Headers.text?_eq_some_iff]

def markedText : String := "1=+ %26&é"

def markedParts : Request where
  method := "DELETE"
  uri := ⟨none,"","/v1/notes",some "q=1"⟩
  headers := [("content-type",Text.utf8 "multipart/form-data; boundary=b")]
  body := Form.Multipart.encode "b" [.file "f" "x.csv" "text/csv" [0,255],.text "a&b" markedText]
  params := []
  remote := none
  limits := {}

def markedForm : Request :=
  { markedParts with
    headers := [("content-type",Text.utf8 "application/x-www-form-urlencoded")]
    body := Form.encode [("a&b",markedText)] }

theorem markedForm_retells :
    Retells markedForm markedParts ⟨[("a&b",markedText)],[⟨"f",some "x.csv",some "text/csv",[0,255]⟩]⟩ where
  parsed := by decide +kernel
  parts := ⟨⟨"multipart/form-data",[("boundary","b")],"multipart/form-data; boundary=b"⟩,by decide +kernel,rfl⟩
  texts := ⟨⟨"application/x-www-form-urlencoded",[],"application/x-www-form-urlencoded"⟩,by decide +kernel,rfl⟩
  method := rfl
  uri := rfl
  body := rfl

theorem markedForm_lossless :
    Retells markedForm markedParts ⟨[("a&b",markedText)],[⟨"f",some "x.csv",some "text/csv",[0,255]⟩]⟩ ∧
      markedParts.decode (Shape.dictionary.schema []) .body = markedForm.decode (Shape.dictionary.schema []) .body :=
  ⟨markedForm_retells,detour_lossless.2.2 _ _ _ _ markedForm_retells fun _ => by simp⟩

end Request
end ServiceKit
