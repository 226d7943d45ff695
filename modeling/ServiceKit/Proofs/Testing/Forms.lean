import ServiceKit.Testing.Request
import ServiceKit.Proofs.Form.Parts
import ServiceKit.Proofs.Http.MediaTypes

namespace ServiceKit.Testing
open Text (Bytes)
open Form.Multipart (Item)
variable {s : String} {c : Char} {i : Item} {b : Builder} {calls : List BuildCall} {uri : Http.Uri}

def fileChar (c : Char) : Bool := Text.isWord c || c == '.'

-- The parts that are read back: names of plain letters, a media type, and content without the boundary.
inductive Plain : Item → Prop where
  | text {name value : String} (named : name.toList.all Text.isWord) (apart : ¬ boundary.toList <:+: value.toList) :
      Plain (.text name value)
  | file {name fileName contentType : String} {data : Bytes} (named : name.toList.all Text.isWord)
      (called : fileName.toList.all fileChar) (typed : (Http.MediaType.parse contentType).isSome)
      (apart : ¬ Text.utf8 boundary <:+: data) : Plain (.file name fileName contentType data)

theorem fileChar_small (plain : fileChar c = true) : c.toNat < 128 := by
  simp only [fileChar,Text.isWord,Bool.or_eq_true,beq_iff_eq] at plain
  rcases plain with ((alnum | rfl) | rfl) | rfl
  · exact Headers.alnum_small alnum
  · decide
  · decide
  · decide

theorem quotable_utf8 (plain : s.toList.all fileChar) : Form.Multipart.Quotable (Text.utf8 s) := by
  intro b mem
  obtain ⟨c,inside,encoded⟩ := List.mem_flatMap.mp mem
  have kind := List.all_eq_true.mp plain c inside
  have small := fileChar_small kind
  rw [Text.ascii_encode small,List.mem_singleton] at encoded
  have quotable : fileChar c = true → Form.Multipart.valueByte (UInt8.ofNat c.toNat) = true ∧
      UInt8.ofNat c.toNat ≠ 34 ∧ UInt8.ofNat c.toNat ≠ 61 := Text.ascii_forall c small (by decide)
  rw [encoded]
  exact quotable kind

theorem value_utf8 (visible : Http.MediaType.Visible s.toList) : ∀ b ∈ Text.utf8 s, Form.Multipart.valueByte b = true := by
  intro b mem
  obtain ⟨c,inside,encoded⟩ := List.mem_flatMap.mp mem
  rcases Text.utf8EncodeChar_kind c with ⟨small,single⟩ | large
  · have value : Http.MediaType.quotedChar c = true → Form.Multipart.valueByte (UInt8.ofNat c.toNat) = true :=
      Text.ascii_forall c small (by decide)
    rw [single,List.mem_singleton] at encoded
    rw [encoded]
    exact value (visible c inside)
  · have high := large b encoded
    have least : 32 ≤ b := UInt8.le_trans (by decide) high
    have other : b ≠ 127 := by
      rintro rfl
      exact absurd high (by decide)
    simp [Form.Multipart.valueByte,least,other]

theorem word_file (plain : s.toList.all Text.isWord) : s.toList.all fileChar := by
  rw [List.all_eq_true] at plain ⊢
  intro c mem
  rw [fileChar,plain c mem]
  rfl

theorem Plain.sound (plain : Plain i) : i.Sound (Text.utf8 boundary) := by
  have ascii : boundary.toList.all fun c => decide (c.toNat < 128) := by decide
  simp only [List.all_eq_true,decide_eq_true_eq] at ascii
  cases plain with
  | text named apart =>
    exact .text (quotable_utf8 (word_file named)) fun within => apart (Text.encode_within ascii within)
  | file named called typed apart =>
    obtain ⟨m,parsed⟩ := Option.isSome_iff_exists.mp typed
    exact .file (quotable_utf8 (word_file named)) (quotable_utf8 called) (value_utf8 (Http.MediaType.parse_visible parsed))
      apart

def formType : String := "multipart/form-data; boundary=" ++ boundary

def BuildCall.item? : BuildCall → Option Item
  | .part i => some i
  | _ => none

theorem header_kept (b : Builder) (name value : String) :
    (b.header name value).parts = b.parts ∧ (b.header name value).uri = b.uri := by
  rw [Builder.header]
  split
  · exact ⟨rfl,rfl⟩
  · split <;> exact ⟨rfl,rfl⟩

theorem form_kept (b : Builder) (value : Json) : (b.form value).parts = b.parts ∧ (b.form value).uri = b.uri := by
  rw [Builder.form]
  split <;> exact ⟨rfl,rfl⟩

theorem call_kept (b : Builder) (c : BuildCall) :
    (b.call c).parts = b.parts ++ c.item?.toList ∧ (b.call c).uri = b.uri := by
  have none := List.append_nil b.parts
  cases c with
  | part i => exact ⟨rfl,rfl⟩
  | remote _ | body _ => exact ⟨none.symm,rfl⟩
  | header _ _ | contentType _ | bearer _ => exact ⟨(header_kept b _ _).1.trans none.symm,(header_kept b _ _).2⟩
  | json value =>
    have ⟨parts,uri⟩ := header_kept { b with body := some value.bytes } Response.contentType "application/json"
    exact ⟨parts.trans none.symm,uri⟩
  | unencodable message =>
    have ⟨parts,uri⟩ := header_kept (b.fail (.json message)) Response.contentType "application/json"
    exact ⟨parts.trans none.symm,uri⟩
  | form value =>
    have ⟨parts,uri⟩ := header_kept (b.form value) Response.contentType "application/x-www-form-urlencoded"
    have ⟨parts',uri'⟩ := form_kept b value
    exact ⟨(parts.trans parts').trans none.symm,uri.trans uri'⟩

theorem calls_kept (b : Builder) (calls : List BuildCall) :
    (calls.foldl Builder.call b).parts = b.parts ++ calls.filterMap BuildCall.item? ∧
      (calls.foldl Builder.call b).uri = b.uri := by
  induction calls generalizing b with
  | nil => exact ⟨(List.append_nil _).symm,rfl⟩
  | cons c calls ih =>
    have ⟨parts,uri⟩ := call_kept b c
    have ⟨parts',uri'⟩ := ih (b.call c)
    refine ⟨?_,uri'.trans uri⟩
    rw [List.foldl_cons,parts',parts,List.append_assoc]
    cases kind : c.item? <;> simp [kind]

theorem withParts_eq (filled : b.parts ≠ []) : b.withParts =
    { b with
      headers := b.headers.set Response.contentType (Text.utf8 formType)
      body := some (Form.Multipart.encode boundary b.parts) } := by
  have name : Http.headerName? Response.contentType = some Response.contentType := by decide
  have value : Http.headerValue? (Text.utf8 formType) = some (Text.utf8 formType) := by decide
  have typed : b.contentType formType = { b with headers := b.headers.set Response.contentType (Text.utf8 formType) } := by
    rw [Builder.contentType,Builder.header,name]
    simp only [value]
  rw [Builder.withParts,if_neg (by simpa using filled)]
  rw [show "multipart/form-data; boundary=" ++ boundary = formType from rfl,typed]

theorem build_parts (filled : b.parts ≠ []) (unfailed : b.error = none) (parsed : Http.Uri.parse b.uri = .ok uri) :
    b.build = .ok ⟨b.method,uri,b.headers.set Response.contentType (Text.utf8 formType),
      Form.Multipart.encode boundary b.parts,[],b.remote,{},none⟩ := by
  rw [Builder.build,withParts_eq filled]
  simp only [unfailed,parsed]
  rfl

def fileOf : Item → Option (String × Option String × Bytes)
  | .text .. => none
  | .file name fileName _ data => some (name,some fileName,data)

-- A request with the items of a form as they are read under any limits.
structure Rereads (items : List Item) (r : Request) : Prop where
  within : ∀ limits, items.length ≤ limits.maxFields → r.body.length ≤ limits.maxBodySize →
    ∃ form, { r with limits := limits }.multipart = .ok form ∧ form.fields = items.filterMap Item.field? ∧
      form.files.map (fun f => (f.fieldName,f.fileName,f.data)) = items.filterMap fileOf
  crowded : ∀ limits, limits.maxFields < items.length → r.body.length ≤ limits.maxBodySize →
    { r with limits := limits }.multipart = .error (.multipart s!"too many fields (max {limits.maxFields})")
  large : ∀ limits, limits.maxBodySize < r.body.length →
    { r with limits := limits }.multipart = .error (.tooLarge limits.maxBodySize r.body.length)

theorem addAll_fields (items : List Item) :
    (Form.Multipart.addAll ⟨[],[]⟩ items).fields = items.filterMap Item.field? := rfl

theorem addAll_files (items : List Item) :
    (Form.Multipart.addAll ⟨[],[]⟩ items).files.map (fun f => (f.fieldName,f.fileName,f.data)) =
      items.filterMap fileOf := by
  show (items.filterMap Form.Multipart.Item.upload?).map _ = _
  rw [List.map_filterMap]
  refine List.filterMap_congr fun i _ => ?_
  cases i <;> rfl

theorem multipart_typed {r : Request} {limits : Form.Limits} {read : Except Form.Multipart.ReadError Form.Multipart}
    (typed : r.headers.get? Response.contentType = some (Text.utf8 formType)) (small : r.body.length ≤ limits.maxBodySize)
    (body : Form.Multipart.readBody (Text.utf8 boundary) limits.maxFields r.body = read) :
    { r with limits := limits }.multipart = read.mapError fun e => .multipart e.message := by
  have text : Headers.readable (Text.utf8 formType) = some formType := by decide
  have named : Form.Multipart.boundaryOf formType = some boundary := by decide
  rw [Request.multipart,typed]
  simp only [text,named,gt_iff_lt,Nat.not_lt.mpr small,if_false,body]
  cases read <;> rfl

theorem multipart_large {r : Request} {limits : Form.Limits}
    (typed : r.headers.get? Response.contentType = some (Text.utf8 formType)) (large : limits.maxBodySize < r.body.length) :
    { r with limits := limits }.multipart = .error (.tooLarge limits.maxBodySize r.body.length) := by
  have text : Headers.readable (Text.utf8 formType) = some formType := by decide
  have named : Form.Multipart.boundaryOf formType = some boundary := by decide
  rw [Request.multipart,typed]
  simp only [text,named,gt_iff_lt,large,if_true]

theorem rereads_encode {r : Request} {items : List Item}
    (typed : r.headers.get? Response.contentType = some (Text.utf8 formType))
    (encoded : r.body = Form.Multipart.encode boundary items) (plain : ∀ i ∈ items, Plain i) : Rereads items r := by
  have clean : 13 ∉ Text.utf8 boundary := by decide
  have back (most : Nat) : Form.Multipart.readBody (Text.utf8 boundary) most r.body =
      if items.length ≤ most then .ok (Form.Multipart.addAll ⟨[],[]⟩ items) else .error (.tooMany most) := by
    rw [encoded]
    exact Form.Multipart.readBody_encode clean fun i mem => (plain i mem).sound
  refine ⟨?_,?_,?_⟩
  · intro limits few small
    exact ⟨_,multipart_typed typed small ((back _).trans (if_pos few)),addAll_fields items,addAll_files items⟩
  · intro limits many small
    exact multipart_typed typed small ((back _).trans (if_neg (Nat.not_le.mpr many)))
  · intro limits large
    exact multipart_large typed large

-- What was built from parts, whatever else was called in between, is read back as these parts.
theorem multipart_reread {method target : String} (parsed : Http.Uri.parse target = .ok uri)
    (unfailed : (calls.foldl Builder.call (.new method target)).error = none)
    (filled : calls.filterMap BuildCall.item? ≠ []) (plain : ∀ i ∈ calls.filterMap BuildCall.item?, Plain i) :
    ∃ r, (calls.foldl Builder.call (.new method target)).build = .ok r ∧
      Rereads (calls.filterMap BuildCall.item?) r := by
  have ⟨parts,kept⟩ := calls_kept (.new method target) calls
  change _ = calls.filterMap BuildCall.item? at parts
  change _ = target at kept
  have built := build_parts (parts ▸ filled) unfailed (kept ▸ parsed)
  exact ⟨_,built,rereads_encode (Headers.get?_set_same ..) (by rw [parts]) plain⟩

def uploads : List BuildCall :=
  [.part (.text "note" "a\r\n--b"),.bearer "t",.part (.file "rows" "rows.csv" "text/csv" [13,10,45,45,116])]

theorem uploads_reread : ∃ r, (uploads.foldl Builder.call (.new "POST" "/upload")).build = .ok r ∧
    Rereads (uploads.filterMap BuildCall.item?) r := by
  have plain : ∀ i ∈ uploads.filterMap BuildCall.item?, Plain i :=
    List.forall_mem_cons.mpr ⟨.text (by decide) (by decide),
      List.forall_mem_singleton.mpr (.file (by decide) (by decide) (by decide) (by decide))⟩
  exact multipart_reread rfl rfl (List.cons_ne_nil _ _) plain

end ServiceKit.Testing
