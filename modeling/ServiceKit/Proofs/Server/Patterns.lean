import Mathlib.Data.List.Forall2
import ServiceKit.Proofs.Server.Paths

namespace ServiceKit.Server
variable {pattern : Pattern} {parts : List String} {params : Http.Params}

inductive Segment.Spells : Segment → String → Prop where
  | param (name) : Spells (.param name) ("\x7b" ++ name ++ "\x7d")
  | literal (plain : ∀ name, text ≠ "\x7b" ++ name ++ "\x7d") : Spells (.literal text) text

theorem Segment.ofPiece_spells (piece : String) : (Segment.ofPiece piece).Spells piece := by
  have braced (name : String) : ("\x7b" ++ name ++ "\x7d").toList = '\x7b' :: (name.toList ++ ['\x7d']) := by simp
  unfold ofPiece
  split
  · next rest begun =>
    split
    · next ended =>
      have whole : "\x7b" ++ String.ofList rest.dropLast ++ "\x7d" = piece := by
        rw [← String.toList_inj,braced,begun,String.toList_ofList,List.dropLast_append_getLast? _ ended]
      have spells := Spells.param (String.ofList rest.dropLast)
      rwa [whole] at spells
    · next open_ =>
      refine .literal ?_
      rintro name rfl
      rw [braced,List.cons.injEq] at begun
      exact open_ (by simp [← begun.2])
  · next plain =>
    refine .literal ?_
    rintro name rfl
    exact plain _ (braced name)

theorem spells_each (parts : List String) : List.Forall₂ Segment.Spells (parts.map Segment.ofPiece) parts := by
  rw [List.forall₂_map_left_iff]
  exact List.forall₂_same.mpr fun piece _ => Segment.ofPiece_spells piece

theorem ofPiece_versionPiece (version : Nat) : Segment.ofPiece (versionPiece version) = .literal (versionPiece version) := by
  have spells := Segment.ofPiece_spells (versionPiece version)
  cases same : Segment.ofPiece (versionPiece version) with
  | literal text =>
    rw [same] at spells
    cases spells
    rfl
  | param name =>
    rw [same] at spells
    generalize piece : versionPiece version = text at spells
    cases spells
    have first := congrArg (fun s => s.toList.head?) piece
    simp [versionPiece] at first

theorem parse_fullPath (version : Nat) (controller suffix : String) :
    Pattern.parse (fullPath version controller suffix) =
      .literal (versionPiece version) :: (pieces controller ++ pieces suffix).map Segment.ofPiece := by
  rw [Pattern.parse,pieces_fullPath,List.map_cons,ofPiece_versionPiece]

namespace Pattern

structure Fits (pattern : Pattern) (parts : List String) : Prop where
  length : parts.length = pattern.length
  literal : ∀ (i : Nat) text, pattern[i]? = some (Segment.literal text) → parts[i]? = some text

def captured (pattern : Pattern) (parts : List String) : Http.Params :=
  (pattern.zip parts).filterMap fun
    | (.param name,piece) => some (name,piece)
    | (.literal _,_) => none

theorem fits_nil : Fits [] parts ↔ parts = [] := by
  constructor
  · intro fits
    exact List.eq_nil_of_length_eq_zero fits.length
  · rintro rfl
    exact ⟨rfl,by simp⟩

theorem not_fits_nil (s : Segment) : ¬ Fits (s :: pattern) [] := by
  intro fits
  cases fits.length

theorem fits_cons {s : Segment} {piece : String} : Fits (s :: pattern) (piece :: parts) ↔
    (∀ text, s = .literal text → piece = text) ∧ Fits pattern parts := by
  constructor
  · rintro ⟨length,literal⟩
    refine ⟨?_,Nat.succ.inj length,fun i => literal (i + 1)⟩
    rintro text rfl
    exact Option.some.inj (literal 0 text rfl)
  · rintro ⟨first,length,literal⟩
    refine ⟨congrArg (· + 1) length,?_⟩
    intro i text found
    cases i with
    | zero => exact congrArg some (first text (Option.some.inj found))
    | succ i => exact literal i text found

theorem capture_iff : pattern.capture parts = some params ↔ pattern.Fits parts ∧ params = pattern.captured parts := by
  induction pattern generalizing parts params with
  | nil =>
    cases parts with
    | nil => simp [capture,fits_nil,captured,eq_comm]
    | cons piece parts => simp [capture,fits_nil]
  | cons s pattern ih =>
    cases parts with
    | nil => cases s <;> simp [capture,not_fits_nil]
    | cons piece parts =>
      rw [fits_cons]
      cases s with
      | literal text =>
        have step : capture (.literal text :: pattern) (piece :: parts) =
            if text = piece then capture pattern parts else none := rfl
        by_cases same : text = piece
        · rw [step,if_pos same,ih]
          simp [captured,same]
        · rw [step,if_neg same]
          simp [Ne.symm same]
      | param name =>
        have step : capture (.param name :: pattern) (piece :: parts) = (capture pattern parts).map ((name,piece) :: ·) := rfl
        rw [step,Option.map_eq_some_iff]
        simp only [ih]
        constructor
        · rintro ⟨_,⟨fits,rfl⟩,rfl⟩
          exact ⟨⟨by simp,fits⟩,rfl⟩
        · rintro ⟨⟨_,fits⟩,rfl⟩
          exact ⟨_,⟨fits,rfl⟩,rfl⟩

theorem mem_captured {e : String × String} (member : e ∈ pattern.captured parts) : e.2 ∈ parts := by
  obtain ⟨⟨s,piece⟩,zipped,found⟩ := List.mem_filterMap.mp member
  cases s with
  | literal text => cases found
  | param name =>
    cases found
    exact (List.of_mem_zip zipped).2

theorem isSome_matchPath (pattern : Pattern) (path : String) :
    (pattern.matchPath path).isSome ↔ pattern.Fits (pieces path) := by
  rw [Option.isSome_iff_exists,matchPath]
  constructor
  · rintro ⟨_,matched⟩
    exact (capture_iff.mp matched).1
  · intro fits
    exact ⟨_,capture_iff.mpr ⟨fits,rfl⟩⟩

def names (pattern : Pattern) : List String :=
  pattern.filterMap fun
    | .param name => some name
    | .literal _ => none

def filled : Pattern → List String → List String
  | [],_ => []
  | .literal text :: pattern,values => text :: filled pattern values
  | .param _ :: pattern,value :: values => value :: filled pattern values
  | .param _ :: pattern,[] => filled pattern []

def fill (pattern : Pattern) (values : List String) : String :=
  String.ofList (spelt ((filled pattern values).map String.toList))

theorem capture_filled {values : List String} (each : values.length = pattern.names.length) :
    pattern.capture (filled pattern values) = some (pattern.names.zip values) := by
  induction pattern generalizing values with
  | nil => rfl
  | cons s pattern ih =>
    cases s with
    | literal text =>
      have step : capture (.literal text :: pattern) (text :: filled pattern values) = capture pattern (filled pattern values) :=
        if_pos rfl
      exact step.trans (ih each)
    | param name =>
      cases values with
      | nil => cases each
      | cons value values =>
        have step : capture (.param name :: pattern) (value :: filled pattern values) =
          (capture pattern (filled pattern values)).map ((name,value) :: ·) := rfl
        exact step.trans (by rw [ih (Nat.succ.inj each)]; rfl)

theorem filled_pieces {values : List String} (literals : ∀ text, Segment.literal text ∈ pattern → Piece text)
    (whole : ∀ value ∈ values, Piece value) : ∀ piece ∈ filled pattern values, Piece piece := by
  induction pattern generalizing values with
  | nil => simp [filled]
  | cons s pattern ih =>
    have later {values : List String} (whole : ∀ value ∈ values, Piece value) : ∀ piece ∈ filled pattern values, Piece piece :=
      ih (fun text member => literals text (List.mem_cons_of_mem s member)) whole
    cases s with
    | literal text =>
      intro piece member
      rcases List.mem_cons.mp member with rfl | member
      · exact literals piece List.mem_cons_self
      · exact later whole piece member
    | param name =>
      cases values with
      | nil => exact later whole
      | cons value values =>
        intro piece member
        rcases List.mem_cons.mp member with rfl | member
        · exact whole piece List.mem_cons_self
        · exact later (fun v listed => whole v (List.mem_cons_of_mem value listed)) piece member

end Pattern

theorem cut_spelt {ps : List (List Char)} (pieces : ∀ p ∈ ps, p ≠ [] ∧ '/' ∉ p) : cut (spelt ps) = ps := by
  induction ps with
  | nil => rfl
  | cons p ps ih =>
    obtain ⟨some,whole⟩ := pieces p List.mem_cons_self
    have rest := ih fun q member => pieces q (List.mem_cons_of_mem p member)
    cases ps with
    | nil => simpa [spelt,cut_slash] using cut_last some whole
    | cons q qs =>
      have divided : spelt (p :: q :: qs) = '/' :: (p ++ '/' :: (q ++ spelt qs)) := by simp [spelt]
      have behind : cut (q ++ spelt qs) = q :: qs := by rw [← rest,← cut_slash]; rfl
      rw [divided,cut_slash,cut_append,cut_last some whole,behind]
      rfl

theorem pieces_spelt (whole : ∀ piece ∈ parts, Piece piece) :
    pieces (String.ofList (spelt (parts.map String.toList))) = parts := by
  refine List.map_injective_iff.mpr (fun _ _ => String.toList_inj.mp) ?_
  rw [pieces_toList,String.toList_ofList]
  refine cut_spelt ?_
  intro p member
  obtain ⟨piece,listed,rfl⟩ := List.mem_map.mp member
  exact ⟨by simpa using (whole piece listed).1,(whole piece listed).2⟩

theorem literal_piece {path text : String} (member : Segment.literal text ∈ Pattern.parse path) : Piece text := by
  obtain ⟨piece,listed,same⟩ := List.mem_map.mp member
  have spells := Segment.ofPiece_spells piece
  rw [same] at spells
  cases spells
  exact piece_of_mem listed

theorem matchPath_fill {path : String} {values : List String} (each : values.length = (Pattern.parse path).names.length)
    (whole : ∀ value ∈ values, Piece value) :
    (Pattern.parse path).matchPath ((Pattern.parse path).fill values) = some ((Pattern.parse path).names.zip values) := by
  rw [Pattern.matchPath,Pattern.fill,pieces_spelt (Pattern.filled_pieces (fun _ => literal_piece) whole)]
  exact Pattern.capture_filled each

theorem fullPath_ping (version : Nat) (controller suffix : String) :
    (Pattern.parse (fullPath version controller suffix)).matchPath "/ping" = none := by
  rw [← Option.not_isSome_iff_eq_none,Pattern.isSome_matchPath,parse_fullPath]
  intro fits
  have probe : pieces "/ping" = ["ping"] := rfl
  rw [probe,Pattern.fits_cons] at fits
  have same := congrArg (fun s => s.toList.head?) (fits.1 _ rfl)
  simp [versionPiece] at same

theorem ping_notFound (controllers : List Controller) (method : String) :
    Lookup.of method "/ping" (controllers.flatMap Controller.entries) = .notFound := by
  rw [Lookup.notFound_iff,Lookup.matching,List.filter_eq_nil_iff]
  intro e member
  obtain ⟨c,_,listed⟩ := List.mem_flatMap.mp member
  obtain ⟨r,_,rfl⟩ := List.mem_map.mp listed
  have none := fullPath_ping r.version c.path r.suffix
  simpa [Entry.pattern,Route.fullPath] using none

-- What the pattern of a route is, which paths it matches and what it captures. Its segments are the version and the
-- pieces of the controller's path and the route's own; it matches the paths with a piece for each, equal to it where
-- it is a literal, and captures the other pieces with their names. Slashes that divide nothing make no difference,
-- and whatever is put in for the parameters is captured. The liveness probe is matched by no route.
theorem fullPath_matches (version : Nat) (controller suffix : String) :
    let pattern := Pattern.parse (fullPath version controller suffix)
    (∀ path parts, pieces path = parts ↔ Cuts path.toList (parts.map String.toList)) ∧
      pattern.head? = some (.literal ("v" ++ toString version)) ∧
      List.Forall₂ Segment.Spells pattern.tail (pieces controller ++ pieces suffix) ∧
      (∀ path, (pattern.matchPath path).isSome ↔ pattern.Fits (pieces path)) ∧
      (∀ path params, pattern.matchPath path = some params →
        params = pattern.captured (pieces path) ∧ ∀ e ∈ params, e.2 ≠ "" ∧ '/' ∉ e.2.toList) ∧
      (∀ controller' suffix', Respelt controller controller' → Respelt suffix suffix' →
        Pattern.parse (fullPath version controller' suffix') = pattern) ∧
      (∀ path path', Respelt path path' → pattern.matchPath path' = pattern.matchPath path) ∧
      (∀ values, values.length = pattern.names.length → (∀ v ∈ values, v ≠ "" ∧ '/' ∉ v.toList) →
        pattern.matchPath (pattern.fill values) = some (pattern.names.zip values)) ∧
      pattern.matchPath "/ping" = none ∧
      ∀ (controllers : List Controller) method, Lookup.of method "/ping" (controllers.flatMap Controller.entries) = .notFound := by
  intro pattern
  have parsed : pattern = _ := parse_fullPath version controller suffix
  refine ⟨?_,?_,?_,pattern.isSome_matchPath,?_,?_,?_,?_,fullPath_ping _ _ _,ping_notFound⟩
  · intro path parts
    rw [cuts_iff,← pieces_toList,(List.map_injective_iff.mpr fun _ _ => String.toList_inj.mp).eq_iff]
  · rw [parsed]
    rfl
  · rw [parsed]
    exact spells_each _
  · intro path params matched
    obtain ⟨_,rfl⟩ := Pattern.capture_iff.mp matched
    exact ⟨rfl,fun e member => piece_of_mem (Pattern.mem_captured member)⟩
  · intro controller' suffix' controllers suffixes
    rw [parsed,parse_fullPath,pieces_eq_iff.mpr controllers,pieces_eq_iff.mpr suffixes]
  · intro path path' same
    rw [Pattern.matchPath,Pattern.matchPath,pieces_eq_iff.mpr same]
  · intro values each whole
    exact matchPath_fill each whole

end ServiceKit.Server
