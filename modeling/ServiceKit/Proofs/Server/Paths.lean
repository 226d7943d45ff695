import Mathlib.Logic.Relation
import ServiceKit.Proofs.Server.Lookup

namespace ServiceKit.Server

inductive Cuts : List Char → List (List Char) → Prop where
  | nil : Cuts [] []
  | slash (rest : Cuts cs ps) : Cuts ('/' :: cs) ps
  | last (some : p ≠ []) (whole : '/' ∉ p) : Cuts p [p]
  | piece (some : p ≠ []) (whole : '/' ∉ p) (rest : Cuts cs ps) : Cuts (p ++ '/' :: cs) (p :: ps)

def cut (cs : List Char) : List (List Char) := (Text.splitAll '/' cs).filter fun p => !p.isEmpty

theorem pieces_toList (path : String) : (pieces path).map String.toList = cut path.toList := by
  have same : String.toList ∘ String.ofList = id := funext fun cs => String.toList_ofList
  rw [pieces,List.map_map,same,List.map_id]
  rfl

theorem cut_nil : cut [] = [] := rfl

theorem cut_append (cs ds : List Char) : cut (cs ++ '/' :: ds) = cut cs ++ cut ds := by
  rw [cut,Text.splitAll_append,List.filter_append]
  rfl

theorem cut_slash (cs : List Char) : cut ('/' :: cs) = cut cs := cut_append [] cs

theorem cut_last (some : p ≠ []) (whole : '/' ∉ p) : cut p = [p] := by
  rw [cut,Text.splitAll_absent whole]
  simp [some]

theorem Cuts.begun {d : Char} (other : '/' ≠ d) (cuts : Cuts cs ps) : ∃ qs, Cuts (d :: cs) qs := by
  cases cuts with
  | nil => exact ⟨_,.last (by simp) (by simpa using other)⟩
  | slash rest => exact ⟨_,.piece (p := [d]) (by simp) (by simpa using other) rest⟩
  | last _ whole => exact ⟨_,.last (by simp) (by simp [other,whole])⟩
  | @piece p cs ps _ whole rest => exact ⟨_,.piece (p := d :: p) (by simp) (by simp [other,whole]) rest⟩

theorem exists_cuts (cs : List Char) : ∃ ps, Cuts cs ps := by
  induction cs with
  | nil => exact ⟨[],.nil⟩
  | cons d cs ih =>
    obtain ⟨ps,cuts⟩ := ih
    by_cases slash : '/' = d
    · exact ⟨ps,slash ▸ .slash cuts⟩
    · exact cuts.begun slash

theorem Cuts.eq_cut (cuts : Cuts cs ps) : cut cs = ps := by
  induction cuts with
  | nil => rfl
  | slash _ ih => rw [cut_slash,ih]
  | last some whole => exact cut_last some whole
  | piece some whole _ ih =>
    rw [cut_append,cut_last some whole,ih]
    rfl

theorem cuts_iff : Cuts cs ps ↔ cut cs = ps := by
  constructor
  · exact Cuts.eq_cut
  · rintro rfl
    obtain ⟨ps,cuts⟩ := exists_cuts cs
    exact cuts.eq_cut.symm ▸ cuts

def Piece (s : String) : Prop := s ≠ "" ∧ '/' ∉ s.toList

theorem Cuts.pieces (cuts : Cuts cs ps) : ∀ p ∈ ps, p ≠ [] ∧ '/' ∉ p := by
  induction cuts with
  | nil => simp
  | slash _ ih => exact ih
  | last some whole => simpa using ⟨some,whole⟩
  | piece some whole _ ih =>
    intro q member
    rcases List.mem_cons.mp member with rfl | later
    · exact ⟨some,whole⟩
    · exact ih q later

theorem piece_of_mem {path s : String} (member : s ∈ pieces path) : Piece s := by
  have listed : s.toList ∈ cut path.toList := by
    rw [← pieces_toList]
    exact List.mem_map_of_mem member
  obtain ⟨some,whole⟩ := (cuts_iff.mpr rfl).pieces _ listed
  refine ⟨?_,whole⟩
  rintro rfl
  exact some rfl

-- The second way of writing has a slash more, at an end or beside a slash.
inductive Redundant : List Char → List Char → Prop where
  | front (cs) : Redundant cs ('/' :: cs)
  | back (cs) : Redundant cs (cs ++ ['/'])
  | beside (cs ds) : Redundant (cs ++ '/' :: ds) (cs ++ '/' :: '/' :: ds)

def Respelt (s t : String) : Prop := Relation.EqvGen Redundant s.toList t.toList

theorem Redundant.cut (more : Redundant cs ds) : cut ds = cut cs := by
  cases more with
  | front => rw [cut_slash]
  | back => rw [cut_append,cut_nil,List.append_nil]
  | beside => rw [cut_append,cut_slash,cut_append]

def spelt (ps : List (List Char)) : List Char := ps.flatMap fun p => '/' :: p

theorem respelt_behind (p : List Char) (same : Relation.EqvGen Redundant cs ds) :
    Relation.EqvGen Redundant (p ++ '/' :: cs) (p ++ '/' :: ds) := by
  induction same with
  | rel cs ds more =>
    cases more with
    | front => exact .rel _ _ (.beside p _)
    | back => simpa using Relation.EqvGen.rel _ _ (Redundant.back (p ++ '/' :: cs))
    | beside cs ds => simpa using Relation.EqvGen.rel _ _ (Redundant.beside (p ++ '/' :: cs) ds)
  | refl => exact .refl _
  | symm _ _ _ ih => exact .symm _ _ ih
  | trans _ _ _ _ _ first second => exact .trans _ _ _ first second

theorem Cuts.spelt (cuts : Cuts cs ps) : Relation.EqvGen Redundant cs (spelt ps) := by
  induction cuts with
  | nil => exact .refl _
  | slash _ ih => exact .trans _ _ _ (.symm _ _ (.rel _ _ (.front _))) ih
  | @last p _ _ => simpa [Server.spelt] using Relation.EqvGen.rel _ _ (Redundant.front p)
  | @piece p cs ps _ _ _ ih =>
    have front := Relation.EqvGen.rel _ _ (Redundant.front (p ++ '/' :: cs))
    have behind := respelt_behind ('/' :: p) ih
    have joined : Relation.EqvGen Redundant ('/' :: p ++ '/' :: Server.spelt ps) ('/' :: p ++ Server.spelt ps) := by
      cases ps with
      | nil => simpa [Server.spelt] using (Relation.EqvGen.rel _ _ (Redundant.back ('/' :: p))).symm
      | cons q qs => exact (Relation.EqvGen.rel _ _ (Redundant.beside ('/' :: p) _)).symm
    exact .trans _ _ _ front (.trans _ _ _ behind joined)

theorem cut_respelt (same : Relation.EqvGen Redundant cs ds) : cut cs = cut ds := by
  induction same with
  | rel _ _ more => exact more.cut.symm
  | refl => rfl
  | symm _ _ _ ih => exact ih.symm
  | trans _ _ _ _ _ first second => exact first.trans second

theorem pieces_eq_iff {s t : String} : pieces s = pieces t ↔ Respelt s t := by
  have inj : pieces s = pieces t ↔ cut s.toList = cut t.toList := by
    rw [← pieces_toList,← pieces_toList]
    exact (List.map_injective_iff.mpr fun _ _ => String.toList_inj.mp).eq_iff.symm
  rw [inj]
  constructor
  · intro same
    have left : Relation.EqvGen Redundant s.toList _ := (cuts_iff.mpr rfl).spelt
    have right : Relation.EqvGen Redundant t.toList _ := (cuts_iff.mpr rfl).spelt
    exact .trans _ _ _ left (same ▸ right.symm)
  · exact cut_respelt

theorem cut_trimmed (cs : List Char) : cut (cs.dropWhile (· == '/')) = cut cs := by
  induction cs with
  | nil => rfl
  | cons d cs ih =>
    rw [List.dropWhile_cons]
    split
    · next slash =>
      rw [eq_of_beq slash,cut_slash,ih]
    · rfl

theorem cut_trimmed_back (cs : List Char) : cut (cs.dropWhile (· == '/')).reverse = cut cs.reverse := by
  induction cs with
  | nil => rfl
  | cons d cs ih =>
    rw [List.dropWhile_cons]
    split
    · next slash =>
      rw [eq_of_beq slash,List.reverse_cons,cut_append,cut_nil,List.append_nil,ih]
    · rfl

theorem cut_trimSlashes (s : String) : cut (trimSlashes s) = cut s.toList := by
  rw [trimSlashes,cut_trimmed_back,List.reverse_reverse,cut_trimmed]

theorem cut_pathPart (cs : List Char) (s : String) : cut (cs ++ pathPart s) = cut cs ++ cut s.toList := by
  rw [← cut_trimSlashes,pathPart]
  split
  · next none => rw [none,cut_nil,List.append_nil,List.append_nil]
  · rw [cut_append]

def versionPiece (version : Nat) : String := "v" ++ toString version

theorem versionPiece_piece (version : Nat) : Piece (versionPiece version) := by
  refine ⟨by simp [versionPiece],?_⟩
  have digits : '/' ∉ (toString version).toList := by
    intro member
    rw [Nat.toString_eq_repr,Nat.repr,String.toList_ofList] at member
    exact absurd (Nat.isDigit_of_mem_toDigits (by decide) (by decide) member) (by decide)
  simpa [versionPiece] using digits

theorem Piece.cut {s : String} (piece : Piece s) : cut s.toList = [s.toList] :=
  cut_last (by simpa using piece.1) piece.2

theorem pieces_fullPath (version : Nat) (controller suffix : String) :
    pieces (fullPath version controller suffix) = versionPiece version :: (pieces controller ++ pieces suffix) := by
  refine List.map_injective_iff.mpr (fun _ _ => String.toList_inj.mp) ?_
  have text : (fullPath version controller suffix).toList =
      '/' :: (versionPiece version).toList ++ pathPart controller ++ pathPart suffix := by
    simp [fullPath,versionPiece]
  rw [pieces_toList,text,cut_pathPart,cut_pathPart,cut_slash,(versionPiece_piece version).cut,List.map_cons,
    List.map_append,pieces_toList,pieces_toList]
  rfl

end ServiceKit.Server
