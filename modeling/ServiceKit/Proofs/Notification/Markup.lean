import Mathlib.Data.List.Basic
import ServiceKit.Notification.Sink

namespace ServiceKit
namespace Markup

def Free (c : Char) : Prop := c ≠ '<' ∧ c ≠ '>' ∧ c ≠ '&'

inductive Entity where
  | ampersand | less | greater

def Entity.char : Entity → Char
  | .ampersand => '&' | .less => '<' | .greater => '>'

def Entity.name : Entity → List Char
  | .ampersand => ['a','m','p'] | .less => ['l','t'] | .greater => ['g','t']

inductive Tag where
  | bold | block | code

def Tag.name : Tag → List Char
  | .bold => ['b'] | .block => ['p','r','e'] | .code => ['c','o','d','e']

def Tag.opening (t : Tag) : List Char := '<' :: t.name ++ ['>']
def Tag.closing (t : Tag) : List Char := '<' :: '/' :: t.name ++ ['>']

inductive Written : Char → List Char → Prop where
  | self {c : Char} (free : Free c) : Written c [c]
  | entity (e : Entity) : Written e.char ('&' :: e.name ++ [';'])

inductive Stands : List Char → List Char → Prop where
  | nil : Stands [] []
  | cons {c : Char} {cs piece text : List Char} (first : Written c piece) (rest : Stands cs text) :
      Stands (c :: cs) (piece ++ text)

inductive Node where
  | char (c : Char)
  | element (tag : Tag) (inside : List Char)

-- What a text reads as: every tag of it opens or closes an element.
inductive Reads : List Node → List Char → Prop where
  | nil : Reads [] []
  | char {c : Char} {piece text : List Char} {nodes : List Node} (first : Written c piece) (rest : Reads nodes text) :
      Reads (.char c :: nodes) (piece ++ text)
  | element (tag : Tag) {inside within text : List Char} {nodes : List Node} (stands : Stands inside within)
      (rest : Reads nodes text) :
      Reads (.element tag inside :: nodes) (tag.opening ++ within ++ tag.closing ++ text)

variable {c c' : Char} {cs cs' piece piece' text text' x y : List Char} {nodes nodes' more more' : List Node}
  {t t' : Tag}

theorem Entity.cancel {e e' : Entity} (same : e.name ++ ';' :: x = e'.name ++ ';' :: y) : e = e' ∧ x = y := by
  cases e <;> cases e' <;> simp_all [name]

theorem Written.cancel (first : Written c piece) (second : Written c' piece') (same : piece ++ x = piece' ++ y) :
    c = c' ∧ x = y := by
  cases first with
  | self free =>
    cases second with
    | self => exact List.cons.inj same
    | entity e => exact absurd (List.cons.inj same).1 free.2.2
  | entity e =>
    cases second with
    | self free => exact absurd (List.cons.inj same).1.symm free.2.2
    | entity e' =>
      have names : e.name ++ ';' :: x = e'.name ++ ';' :: y := by simpa using same
      obtain ⟨rfl,rest⟩ := Entity.cancel names
      exact ⟨rfl,rest⟩

theorem Written.not_tag (written : Written c piece) : piece ++ x ≠ '<' :: y := by
  intro same
  cases written with
  | self free => exact free.1 (List.cons.inj same).1
  | entity e => cases same

theorem Stands.cancel (first : Stands cs text) (second : Stands cs' text')
    (same : text ++ '<' :: x = text' ++ '<' :: y) : cs = cs' ∧ x = y := by
  induction first generalizing cs' text' with
  | nil =>
    cases second with
    | nil => exact ⟨rfl,(List.cons.inj same).2⟩
    | cons written rest =>
      rw [List.append_assoc] at same
      exact absurd same.symm written.not_tag
  | cons written rest ih =>
    rw [List.append_assoc] at same
    cases second with
    | nil => exact absurd same written.not_tag
    | cons written' rest' =>
      rw [List.append_assoc] at same
      obtain ⟨rfl,tail⟩ := written.cancel written' same
      obtain ⟨rfl,end_⟩ := ih rest' tail
      exact ⟨rfl,end_⟩

theorem Tag.cancel (same : t.name ++ '>' :: x = t'.name ++ '>' :: y) : t = t' ∧ x = y := by
  cases t <;> cases t' <;> simp_all [name]

theorem Reads.unique (first : Reads nodes text) (second : Reads nodes' text') (same : text = text') :
    nodes = nodes' := by
  induction first generalizing nodes' text' with
  | nil =>
    cases second with
    | nil => rfl
    | char written => cases written <;> cases same
    | element tag => cases same
  | char written rest ih =>
    cases second with
    | nil => cases written <;> cases same
    | char written' rest' =>
      obtain ⟨rfl,tail⟩ := written.cancel written' same
      rw [ih rest' tail]
    | element tag stands rest' => exact absurd same written.not_tag
  | element tag stands rest ih =>
    cases second with
    | nil => cases same
    | char written rest' => exact absurd same.symm written.not_tag
    | element tag' stands' rest' =>
      simp only [Tag.opening,Tag.closing,List.cons_append,List.append_assoc,List.nil_append,List.cons.injEq,
        true_and] at same
      obtain ⟨rfl,inner⟩ := Tag.cancel same
      obtain ⟨rfl,outer⟩ := stands.cancel stands' inner
      rw [List.cons.injEq,List.append_cancel_left_eq,List.cons.injEq] at outer
      rw [ih rest' outer.2.2]

theorem Reads.append (first : Reads nodes text) (second : Reads nodes' text') :
    Reads (nodes ++ nodes') (text ++ text') := by
  induction first with
  | nil => exact second
  | char written rest ih =>
    rw [List.append_assoc]
    exact .char written ih
  | element tag stands rest ih =>
    rw [List.append_assoc]
    exact .element tag stands ih

theorem stands_self (cs : List Char) (free : ∀ c ∈ cs, Free c) : Stands cs cs := by
  induction cs with
  | nil => exact .nil
  | cons c cs ih =>
    obtain ⟨first,others⟩ := List.forall_mem_cons.mp free
    exact .cons (.self first) (ih others)

theorem Stands.append (first : Stands cs text) (second : Stands cs' text') : Stands (cs ++ cs') (text ++ text') := by
  induction first with
  | nil => exact second
  | cons written rest ih =>
    rw [List.append_assoc]
    exact .cons written ih

theorem escapeChars_cons (c : Char) (cs : List Char) :
    Sink.escapeChars (c :: cs) = Sink.escapeChars [c] ++ Sink.escapeChars cs := by
  simp only [Sink.escapeChars,Text.replaced,List.flatMap_cons,List.flatMap_append,List.flatMap_nil,List.append_nil]

theorem written_escapeChars (c : Char) : Written c (Sink.escapeChars [c]) := by
  by_cases ampersand : c = '&'
  · subst ampersand
    exact .entity .ampersand
  by_cases less : c = '<'
  · subst less
    exact .entity .less
  by_cases greater : c = '>'
  · subst greater
    exact .entity .greater
  · have same : Sink.escapeChars [c] = [c] := by simp [Sink.escapeChars,Text.replaced,ampersand,less,greater]
    rw [same]
    exact .self ⟨less,greater,ampersand⟩

theorem stands_escapeChars (cs : List Char) : Stands cs (Sink.escapeChars cs) := by
  induction cs with
  | nil => exact .nil
  | cons c cs ih =>
    rw [escapeChars_cons]
    exact .cons (written_escapeChars c) ih

theorem stands_escapeMarkup (s : String) : Stands s.toList (Sink.escapeMarkup s).toList := by
  rw [Sink.escapeMarkup,String.toList_ofList]
  exact stands_escapeChars s.toList

theorem Stands.reads (stands : Stands cs text) : Reads (cs.map .char) text := by
  induction stands with
  | nil => exact .nil
  | cons written rest ih => exact .char written ih

def chars (s : String) : List Node := s.toList.map .char

def fieldTree (f : NotificationField) : List Node :=
  if f.short then .element .bold f.key.toList :: chars (": " ++ f.value ++ "\n")
  else .element .bold f.key.toList :: (chars ":\n" ++ .element .block f.value.toList :: chars "\n")

def tree (traceId : String) (n : Notification) : List Node :=
  .element .bold n.title.toList :: (chars "\n" ++
    (n.fields.flatMap fieldTree ++ [.element .code ("trace_id: " ++ traceId).toList]))

theorem reads_field (f : NotificationField) : Reads (fieldTree f) (Sink.telegramField f).toList := by
  have key := stands_escapeMarkup f.key
  have value := stands_escapeMarkup f.value
  unfold fieldTree Sink.telegramField
  split
  · have line : Stands (": " ++ f.value ++ "\n").toList (": " ++ Sink.escapeMarkup f.value ++ "\n").toList := by
      simp only [String.toList_append]
      exact ((stands_self _ (by simp [Free])).append value).append (stands_self _ (by simp [Free]))
    have shape := Reads.element .bold key line.reads
    simpa [chars,Tag.opening,Tag.closing,Tag.name] using shape
  · have block := Reads.element .block value (stands_self ['\n'] (by simp [Free])).reads
    have line := (stands_self [':','\n'] (by simp [Free])).reads.append block
    have shape := Reads.element .bold key line
    simpa [chars,Tag.opening,Tag.closing,Tag.name] using shape

theorem reads_fields (fs : List NotificationField) :
    Reads (fs.flatMap fieldTree) (String.join (fs.map Sink.telegramField)).toList := by
  rw [String.toList_join]
  induction fs with
  | nil => exact .nil
  | cons f fs ih => exact (reads_field f).append ih

theorem reads_tree (traceId : String) (n : Notification) : Reads (tree traceId n) (Sink.telegramText traceId n).toList := by
  have trace : Stands ("trace_id: " ++ traceId).toList ("trace_id: " ++ Sink.escapeMarkup traceId).toList := by
    simp only [String.toList_append]
    exact (stands_self _ (by simp [Free])).append (stands_escapeMarkup traceId)
  have last := Reads.element .code trace .nil
  have line := (stands_self ['\n'] (by simp [Free])).reads.append ((reads_fields n.fields).append last)
  have shape := Reads.element .bold (stands_escapeMarkup n.title) line
  simpa [tree,chars,Sink.telegramText,Tag.opening,Tag.closing,Tag.name] using shape

section Told
variable {inside inside' : List Char} {f f' : NotificationField} {fs fs' : List NotificationField}

theorem char_cancel (same : cs.map Node.char ++ .element t inside :: more = cs'.map .char ++ .element t' inside' :: more') :
    cs = cs' ∧ Node.element t inside :: more = .element t' inside' :: more' := by
  induction cs generalizing cs' with
  | nil =>
    cases cs' with
    | nil => exact ⟨rfl,same⟩
    | cons c' cs' => cases same
  | cons c cs ih =>
    cases cs' with
    | nil => cases same
    | cons c' cs' =>
      obtain ⟨first,rest⟩ := List.cons.inj same
      obtain ⟨rfl,others⟩ := ih rest
      exact ⟨by rw [Node.char.inj first],others⟩

theorem fieldTree_cancel (same : fieldTree f ++ .element t inside :: more = fieldTree f' ++ .element t' inside' :: more') :
    f = f' ∧ Node.element t inside :: more = .element t' inside' :: more' := by
  obtain ⟨key,value,short⟩ := f
  obtain ⟨key',value',short'⟩ := f'
  cases short <;> cases short'
  case true.true =>
    obtain ⟨first,rest⟩ := List.cons.inj same
    obtain ⟨line,others⟩ := char_cancel rest
    cases String.toList_inj.mp (Node.element.inj first).2
    have text : value.toList = value'.toList := by simpa using line
    exact ⟨by rw [String.toList_inj.mp text],others⟩
  case false.false =>
    obtain ⟨first,rest⟩ := List.cons.inj same
    cases String.toList_inj.mp (Node.element.inj first).2
    rw [List.append_eq,List.append_eq,List.append_assoc,List.append_assoc] at rest
    obtain ⟨_,block⟩ := char_cancel rest
    obtain ⟨second,others⟩ := List.cons.inj block
    cases String.toList_inj.mp (Node.element.inj second).2
    exact ⟨rfl,(char_cancel others).2⟩
  all_goals
    obtain ⟨_,rest⟩ := List.cons.inj same
    simp [chars] at rest

theorem fieldTree_start (f : NotificationField) : ∃ rest, fieldTree f = .element .bold f.key.toList :: rest := by
  unfold fieldTree
  split <;> exact ⟨_,rfl⟩

theorem fields_start (fs : List NotificationField) (inside : List Char) : ∃ t inside' more,
    fs.flatMap fieldTree ++ [.element .code inside] = .element t inside' :: more := by
  cases fs with
  | nil => exact ⟨_,_,_,rfl⟩
  | cons f fs =>
    obtain ⟨rest,start⟩ := fieldTree_start f
    rw [List.flatMap_cons,start]
    exact ⟨_,_,_,rfl⟩

theorem fields_cancel (same : fs.flatMap fieldTree ++ [.element .code inside] =
    fs'.flatMap fieldTree ++ [.element .code inside']) : fs = fs' ∧ inside = inside' := by
  have ended {f : NotificationField} {rest more : List Node} {inside : List Char} :
      fieldTree f ++ rest ≠ .element .code inside :: more := by
    obtain ⟨_,start⟩ := fieldTree_start f
    rw [start]
    nofun
  induction fs generalizing fs' with
  | nil =>
    cases fs' with
    | nil => exact ⟨rfl,(Node.element.inj (List.cons.inj same).1).2⟩
    | cons f' fs' =>
      rw [List.flatMap_cons,List.append_assoc] at same
      exact absurd same.symm ended
  | cons f fs ih =>
    rw [List.flatMap_cons,List.append_assoc] at same
    cases fs' with
    | nil => exact absurd same ended
    | cons f' fs' =>
      rw [List.flatMap_cons,List.append_assoc] at same
      obtain ⟨_,_,_,start⟩ := fields_start fs inside
      obtain ⟨_,_,_,start'⟩ := fields_start fs' inside'
      rw [start,start'] at same
      obtain ⟨rfl,rest⟩ := fieldTree_cancel same
      rw [← start,← start'] at rest
      obtain ⟨rfl,trace⟩ := ih rest
      exact ⟨rfl,trace⟩

theorem tree_inj {traceId traceId' : String} {n n' : Notification} (same : tree traceId n = tree traceId' n') :
    n.title = n'.title ∧ n.fields = n'.fields ∧ traceId = traceId' := by
  obtain ⟨title,rest⟩ := List.cons.inj same
  obtain ⟨fields,trace⟩ := fields_cancel (List.append_cancel_left rest)
  refine ⟨String.toList_inj.mp (Node.element.inj title).2,fields,?_⟩
  rw [String.toList_append,String.toList_append] at trace
  exact String.toList_inj.mp (List.append_cancel_left trace)

end Told

end Markup

-- A rendered text reads as the tree of its notification only: its tags are those of the parts, each closed around the part
-- itself, and every other mark in it is an entity. So two notifications that are rendered alike are alike in all that is
-- rendered of them.
theorem Sink.telegramText_unforged :
    (∀ traceId n nodes, Markup.Reads nodes (telegramText traceId n).toList ↔ nodes = Markup.tree traceId n) ∧
      ∀ traceId traceId' n n', telegramText traceId n = telegramText traceId' n' →
        n.title = n'.title ∧ n.fields = n'.fields ∧ traceId = traceId' := by
  constructor
  · intro traceId n nodes
    constructor
    · intro reads
      exact reads.unique (Markup.reads_tree traceId n) rfl
    · rintro rfl
      exact Markup.reads_tree traceId n
  · intro traceId traceId' n n' same
    exact Markup.tree_inj ((Markup.reads_tree traceId n).unique (Markup.reads_tree traceId' n') (congrArg _ same))

-- A title that is spelt like the end of a title with a field behind it is rendered otherwise than these.
theorem Sink.telegramText_spelt :
    telegramText "t" ⟨"a</b>\n<b>k</b>: v",.info,[],none,[]⟩ ≠ telegramText "t" ⟨"a",.info,[⟨"k","v",true⟩],none,[]⟩ := by
  intro same
  obtain ⟨title,_,_⟩ := telegramText_unforged.2 _ _ _ _ same
  revert title
  decide

end ServiceKit
