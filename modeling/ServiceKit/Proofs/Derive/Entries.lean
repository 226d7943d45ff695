import ServiceKit.Proofs.Derive.Extents
import ServiceKit.Proofs.Outcome

namespace ServiceKit.Derive
open Extent Outcome

inductive Entry.Listed : Tokens → List Entry → Prop
  | none : Listed [] []
  | last {ts e} (whole : Entry.read ts = .ok (e,[])) : Listed ts [e]
  | more {ts e rest es joint} (whole : Entry.read ts = .ok (e,[])) (later : Listed rest es) :
      Listed (ts ++ .mark ',' joint :: rest) (e :: es)

variable {ts rest behind body : Tokens} {joint : Bool} {n m : Nat} {e : Entry} {es : List Entry}

theorem pathNames_comma {ns : List String} (le : n ≤ m) (read : pathNames n ts = .ok (ns,rest)) :
    pathNames m (ts ++ .mark ',' joint :: behind) = .ok (ns,rest ++ .mark ',' joint :: behind) := by
  induction n generalizing m ts ns with
  | zero => cases read
  | succ n ih =>
    cases m with
    | zero => exact absurd le (Nat.not_succ_le_zero n)
    | succ m =>
      unfold pathNames at read
      split at read
      · next w ts =>
        split at read
        · next named =>
          rw [List.cons_append,pathNames,if_pos named,steady_colons]
          cases stands : colons ts with
          | none =>
            rw [stands] at read
            cases read
            rfl
          | some left =>
            rw [stands] at read
            dsimp only at read
            split at read
            · next ms spare inner =>
              cases read
              simp only [Option.map_some,ih (Nat.le_of_succ_le_succ le) inner]
            · cases read
        · cases read
      · cases read

theorem path_comma {p : Path} (read : path ts = .ok (p,rest)) :
    path (ts ++ .mark ',' joint :: behind) = .ok (p,rest ++ .mark ',' joint :: behind) := by
  unfold path at *
  rw [steady_colons]
  cases stands : colons ts with
  | none | some _ =>
    rw [stands] at read
    obtain ⟨⟨ns,left⟩,names,same⟩ := map_ok.mp read
    cases same
    exact map_ok.mpr ⟨_,pathNames_comma (by simp) names,rfl⟩

namespace Entry

theorem outerPath_comma {p : Path} (read : outerPath ts = .ok (p,rest)) :
    outerPath (ts ++ .mark ',' joint :: behind) = .ok (p,rest ++ .mark ',' joint :: behind) := by
  unfold outerPath at read
  split at read
  · cases read
    rfl
  · next other =>
    -- What is added stands behind the first token, which alone tells the two kinds of path apart.
    have outer : outerPath (ts ++ .mark ',' joint :: behind) = Derive.path (ts ++ .mark ',' joint :: behind) := by
      unfold outerPath
      split
      · next same =>
        cases ts with
        | nil => cases same
        | cons t ts =>
          cases same
          exact absurd rfl (other ts)
      · rfl
    rw [outer]
    exact path_comma read

theorem value_comma {v : Value} (read : value ts = .ok (v,rest)) :
    value (ts ++ .mark ',' joint :: behind) = .ok (v,rest ++ .mark ',' joint :: behind) := by
  unfold value at *
  split at read
  · next r taken =>
    cases read
    rw [expression_comma taken]
  · cases read

theorem read_comma (read : read ts = .ok (e,[])) :
    Entry.read (ts ++ .mark ',' joint :: behind) = .ok (e,.mark ',' joint :: behind) := by
  unfold Entry.read at *
  cases outer : outerPath ts with
  | error f =>
    rw [outer] at read
    cases read
  | ok r =>
    obtain ⟨p,left⟩ := r
    rw [outer] at read
    rw [outerPath_comma outer]
    split at read
    · cases read
    · next same =>
      cases same
      cases read
      rfl
    · next same =>
      cases same
      obtain ⟨⟨v,spare⟩,valued,same⟩ := map_ok.mp read
      cases same
      exact map_ok.mpr ⟨_,value_comma valued,rfl⟩
    · next same =>
      cases same
      cases read
      rfl

theorem readAll_listed (listed : Listed body es) (fuel : body.length < n) : readAll n body = .ok es := by
  have some_token (ts : Tokens) (e : Entry) (whole : Entry.read ts = .ok (e,[])) : ts ≠ [] := by
    rintro rfl
    cases whole
  induction listed generalizing n with
  | none => cases n <;> rfl
  | @last ts e whole =>
    obtain ⟨n,rfl⟩ := Nat.exists_eq_succ_of_ne_zero (Nat.ne_zero_of_lt fuel)
    rw [readAll,whole]
    · rfl
    · exact some_token ts e whole
  | @more ts e rest es joint whole later ih =>
    obtain ⟨n,rfl⟩ := Nat.exists_eq_succ_of_ne_zero (Nat.ne_zero_of_lt fuel)
    have less : rest.length < n := by
      simp only [List.length_append,List.length_cons] at fuel
      omega
    rw [readAll,read_comma whole]
    · show (do return e :: (← readAll n rest)) = _
      rw [ih less]
      rfl
    · simp

theorem entries_listed (p : Path) (listed : Listed body es) : Attribute.entries (.list p body) = .ok es :=
  readAll_listed listed (Nat.lt_succ_self _)

end Entry
end ServiceKit.Derive
