import HttpFramework.Http.Request
import HttpFramework.Library.Search

/-! The query of a request as a list of pairs. The pieces between `&` are read from left to right, and
a piece without `=` is passed over. -/

namespace HttpFramework.Http

namespace HttpRequest

variable {pairs : List (Bytes × Bytes)}

/-- A piece of the query, cut at its first `=`. -/
def queryPair (piece : Bytes) : Option (Bytes × Bytes) :=
  if chr '=' ∈ piece then some (piece.take (piece.idxOf (chr '=')), piece.drop (piece.idxOf (chr '=') + 1)) else none

/-- The pairs of a query in the order of its text. -/
def queryPairs (query : Bytes) : List (Bytes × Bytes) := (query.splitOn (chr '&')).filterMap queryPair

/-- The text of a list of pairs. -/
def queryText (pairs : List (Bytes × Bytes)) : Bytes :=
  [chr '&'].intercalate (pairs.map fun pair => pair.1 ++ chr '=' :: pair.2)

theorem addParameter_eq (parameters : Dict) (piece : Bytes) :
    addParameter parameters piece = parameters.insertMany (queryPair piece).toList := by
  rw [addParameter, queryPair]
  by_cases present : chr '=' ∈ piece
  · have inside := (List.idxOf_lt_length_of_mem present).ne
    simp [present, inside]
  · simp [present]

/-- The loop stops at the first `&`, and goes on behind it. -/
theorem addParameters_eq (fuel : Nat) (parameters : Dict) (query : Bytes) (enough : query.length < fuel) :
    addParameters fuel parameters query = parameters.insertMany (queryPairs query) := by
  induction fuel generalizing parameters query with
  | zero => omega
  | succ fuel ih =>
    rw [addParameters, queryPairs]
    by_cases more : query.idxOf (chr '&') ≠ query.length
    · obtain ⟨cut, absent⟩ := Search.idxOf_cut more
      have inside := lt_of_le_of_ne List.idxOf_le_length more
      have shorter : (query.drop (query.idxOf (chr '&') + 1)).length < fuel := by
        rw [List.length_drop]
        omega
      have pieces : query.splitOn (chr '&') =
          query.take (query.idxOf (chr '&')) :: (query.drop (query.idxOf (chr '&') + 1)).splitOn (chr '&') := by
        conv_lhs => rw [cut]
        exact List.splitOn_append_cons_self_of_not_mem absent _
      rw [if_pos more, ih _ _ shorter, addParameter_eq, ← Std.ExtTreeMap.insertMany_append, pieces, queryPairs,
        List.filterMap_cons]
      cases queryPair (query.take (query.idxOf (chr '&'))) <;> rfl
    · have single : query.splitOn (chr '&') = [query] := List.splitOn_eq_singleton fun member =>
        more (List.idxOf_lt_length_of_mem member).ne
      rw [if_neg more, addParameter_eq, single, List.filterMap_cons]
      cases queryPair query <;> rfl

theorem setQueryParameters_eq (request : HttpRequest) (query : Bytes) :
    (request.setQueryParameters query).queryParameters = request.queryParameters.insertMany (queryPairs query) :=
  addParameters_eq _ _ query (Nat.lt_succ_self _)

/-- Where no separator is part of a key or a value, the pairs are read back. -/
theorem queryPairs_queryText (plain : ∀ pair ∈ pairs, chr '&' ∉ pair.1 ∧ chr '=' ∉ pair.1 ∧ chr '&' ∉ pair.2) :
    queryPairs (queryText pairs) = pairs := by
  cases pairs with
  | nil => rfl
  | cons first rest =>
    have pieces : (queryText (first :: rest)).splitOn (chr '&') =
        (first :: rest).map fun pair => pair.1 ++ chr '=' :: pair.2 := by
      apply List.splitOn_intercalate
      · intro piece member
        obtain ⟨pair, written, rfl⟩ := List.mem_map.mp member
        obtain ⟨key, _, value⟩ := plain pair written
        have other : chr '&' ≠ chr '=' := by decide
        simp [key, value, other]
      · exact List.cons_ne_nil _ _
    rw [queryPairs, pieces, List.filterMap_map]
    have read : ∀ pair ∈ first :: rest, (queryPair ∘ fun pair : Bytes × Bytes => pair.1 ++ chr '=' :: pair.2) pair = some pair := by
      intro pair member
      have place := Search.idxOf_join (plain pair member).2.1 pair.2
      simp [queryPair, place]
    rw [List.filterMap_congr read, List.filterMap_some]

/-- The query is read as the list of its pairs, and a list of pairs that is written as a query is
read back. -/
theorem setQueryParameters_reads (request : HttpRequest) (fresh : request.queryParameters = ∅) :
    (∀ query, (request.setQueryParameters query).queryParameters = (∅ : Dict).insertMany (queryPairs query)) ∧
      ∀ pairs, (∀ pair ∈ pairs, chr '&' ∉ pair.1 ∧ chr '=' ∉ pair.1 ∧ chr '&' ∉ pair.2) →
        (request.setQueryParameters (queryText pairs)).queryParameters = (∅ : Dict).insertMany pairs := by
  refine ⟨fun query => fresh ▸ setQueryParameters_eq request query, ?_⟩
  intro pairs plain
  rw [setQueryParameters_eq, fresh, queryPairs_queryText plain]

theorem setQueryParameters_reads_new :
    (∀ query, (HttpRequest.setQueryParameters {} query).queryParameters = (∅ : Dict).insertMany (queryPairs query)) ∧
      ∀ pairs, (∀ pair ∈ pairs, chr '&' ∉ pair.1 ∧ chr '=' ∉ pair.1 ∧ chr '&' ∉ pair.2) →
        (HttpRequest.setQueryParameters {} (queryText pairs)).queryParameters = (∅ : Dict).insertMany pairs :=
  setQueryParameters_reads {} rfl

example : queryPairs (ascii "a=1&&b&c=2=3&") = [(ascii "a", ascii "1"), (ascii "c", ascii "2=3")] := by decide

end HttpRequest

end HttpFramework.Http
