import TemporalDB.Execution
import TemporalDB.Proofs.Assembly.Fits
import TemporalDB.Proofs.Listing.Constants
import TemporalDB.Proofs.Sql.Derivation
import TemporalDB.Proofs.Sql.Lexeme

/-!
# Explanations

What a query does is printed when its listing is written, if the text asks to explain it, or when its
unit runs and is asked to explain. One way prints what the query was planned as, the other what its
listing was assembled to. Main statement: `explanations_agree`.
-/

namespace TemporalDB

open Text Listing Assembly Execution

namespace Sql

open TemporalDB.Sql.Parser

/-- The word and the blank in front of a text are one more token, on its first line. -/
theorem tokens_explain (text : String) :
    tokens ("EXPLAIN " ++ text) = (tokens text).map (⟨.word "EXPLAIN", 1⟩ :: ·) := by
  have word : scan 'E' (['X', 'P', 'L', 'A', 'I', 'N'] ++ ' ' :: text.toList) =
      .ok ⟨some (.word "EXPLAIN"), 0, ' ' :: text.toList⟩ :=
    scan_name (by decide) (List.all_eq_true.mp (by decide)) fun d hd =>
      (ends_of_separates (apart_cons (by decide) d hd)).1
  have blank : scan ' ' text.toList = .ok ⟨none, 0, text.toList⟩ := by
    rw [scan.eq_def, if_neg (by decide), if_pos (by decide)]
  have chars : ("EXPLAIN " ++ text).toList =
      'E' :: (['X', 'P', 'L', 'A', 'I', 'N'] ++ ' ' :: text.toList) := String.toList_append
  rw [tokens, chars, tokensFrom_token word, tokensFrom_gap blank]
  rfl

/-- **A text that is a query to be run is one to be explained with the word in front.** -/
theorem parseQuery_explain {text : String} {q : Query} (h : parseQuery text = .ok q)
    (runs : q.explain = false) :
    parseQuery ("EXPLAIN " ++ text) = .ok { q with explain := true } := by
  obtain ⟨ls, hls, h⟩ := bind_eq_ok_iff.mp h
  obtain ⟨derived, balanced⟩ := run_query_iff.mp h
  refine bind_eq_ok_iff.mpr ⟨⟨.word "EXPLAIN", 1⟩ :: ls, ?_, run_query_iff.mpr ⟨?_, balanced⟩⟩
  · rw [tokens_explain, hls]
    rfl
  · rw [List.map_cons]
    generalize ls.map (·.token) = ts at derived
    cases derived with
    | run statement ending =>
        exact .explain (.cons (isKeyword_self "EXPLAIN") .nil) statement ending
    | explain => cases runs

end Sql

namespace Listing

variable {q : Query} {s : Schema} {r : Relation} {op : Operation}

def headingOf (q : Query) (table : String) : String :=
  comment q.display ++ textOf (queryHeader q.paramCount table)

theorem listingOf_operation (q : Query) (table : String) (op : Operation) :
    listingOf q.display q.paramCount table (ofOperation op) =
      headingOf q table ++ operationText op := by
  rw [listingOf, textOf_append, headingOf, String.append_assoc]
  rfl

theorem ofQuery_of_planned (hr : s.relation? q.statement.table = some r)
    (hop : Plan.operationOf r q.statement = .ok op) : ∃ source, ofQuery q s = .ok source ∧
      source.text = listingOf q.display q.paramCount r.name
        (if q.explain then [explanation (operationText op)] else ofOperation op) := by
  unfold ofQuery
  simp only [hr, hop]
  exact ⟨_, rfl, rfl⟩

theorem ofBytes_queryUnit {listing : String} {params : Nat} {table : String} {body : Body}
    (h : assemble listing = .ok (queryUnit params table body)) :
    CompiledUnit.ofBytes (queryUnit params table body).artifact.toUTF8 =
      .ok (queryUnit params table body) := by
  obtain ⟨version, fits⟩ := fits_of_assemble h
  rw [CompiledUnit.ofBytes_toUTF8, CompiledUnit.ofArtifact_artifact (fits (.inr ⟨_, rfl⟩)),
    if_pos version]

/-- **The two ways to explain agree.** Let a query be read, planned on a schema that was read,
written and assembled. The same text with `EXPLAIN` in front is read as the query to be explained,
and this one is written and assembled, too. Both units come back from their artifacts. The first
asked to explain and the second however it is asked give the same text, on every database and with
any parameters, and leave the database as it is. Below the heading of the query's listing the text
is the whole listing, and is assembled to the operation that the first unit runs. -/
theorem explanations_agree {schemaText text : String} {source : Source} {u : CompiledUnit}
    (hs : Sql.parseSchema schemaText = .ok s) (hq : Sql.parseQuery text = .ok q)
    (runs : q.explain = false) (hsource : ofQuery q s = .ok source)
    (hu : assemble source.text = .ok u) :
    ∃ table op source' u' explanation, let program := ⟨q.paramCount, table, .execute op⟩
      u.program = .query program ∧ CompiledUnit.ofBytes u.artifact.toUTF8 = .ok u ∧
      Sql.parseQuery ("EXPLAIN " ++ text) = .ok { q with explain := true } ∧
      ofQuery { q with explain := true } s = .ok source' ∧ assemble source'.text = .ok u' ∧
      CompiledUnit.ofBytes u'.artifact.toUTF8 = .ok u' ∧
      (∃ explaining, u'.program = .query explaining ∧ ∀ db params explain now,
        runQuery explaining db params explain now = (.ok (.explained explanation), db)) ∧
      (∀ db params now, runQuery program db params true now =
        (.ok (.explained explanation), db)) ∧
      source.text = headingOf q table ++ explanation ∧
      assemble (headingOf q table ++ explanation) = .ok u := by
  have admitted := Sql.admitted_of_parseSchema hs
  obtain ⟨r, op, hr, hop, rfl⟩ := assembled_eq hq admitted hsource hu
  obtain ⟨r', op', hr', hop', htext⟩ := ofQuery_eq_ok hsource
  cases hr.symm.trans hr'
  cases hop.symm.trans hop'
  obtain ⟨_, _, -, -, assembled⟩ := exists_assemble_source_iff hq admitted hsource
  obtain ⟨small, -⟩ := assembled.mp ⟨_, hu⟩
  have body : bodyOf q op = .execute op := if_neg (by simp [runs])
  have whole : source.text = headingOf q r.name ++ operationText op := by
    rw [htext, runs, if_neg Bool.false_ne_true, listingOf_operation]
  obtain ⟨source', hsource', htext'⟩ := ofQuery_of_planned (q := { q with explain := true }) hr hop
  rw [if_pos rfl] at htext'
  have hu' : assemble source'.text =
      .ok (queryUnit q.paramCount r.name (.explain (operationText op))) := by
    rw [htext']
    exact assemble_explain small
  rw [body] at hu ⊢
  exact ⟨r.name, op, source', _, operationText op, rfl, ofBytes_queryUnit hu,
    Sql.parseQuery_explain hq runs, hsource', hu', ofBytes_queryUnit hu',
    ⟨_, rfl, fun _ _ _ _ => rfl⟩, fun _ _ _ => rfl, whole, whole ▸ hu⟩

def workshopText : String :=
  "CREATE TABLE part (code VARCHAR(8) PRIMARY KEY, note VARCHAR(40), price NUMERIC(6, 2)) " ++
    "WITH SYSTEM VERSIONING"

/-- The texts of an update with a note that looks like a listing: it is explained without the
parameter that it takes, and on a database that has no such table. -/
theorem explanations_agree_renoting : ∃ source u explanation,
    ofQuery renotingQuery workshop = .ok source ∧ assemble source.text = .ok u ∧
      ∃ program, u.program = .query program ∧
        runQuery program (.new ⟨[]⟩ ⟨"tbl"⟩) [] true .first =
          (.ok (.explained explanation), .new ⟨[]⟩ ⟨"tbl"⟩) := by
  have declared : Sql.parseSchema workshopText = .ok workshop := by decide +kernel
  have read : Sql.parseQuery renoting = .ok renotingQuery := by decide +kernel
  have runs : renotingQuery.explain = false := by decide +kernel
  have relation : workshop.relation? "part" = some part := by decide +kernel
  have planned : Plan.operationOf part renotingQuery.statement = .ok renotingOperation := by
    decide +kernel
  have wellFormed : renotingOperation.WellFormed :=
    wellFormed_of_planned (by decide) (by decide) read (by decide) relation planned
  have rereads : renotingOperation.Rereads := by decide +kernel
  obtain ⟨source, hsource, htext⟩ := ofQuery_of_planned (q := renotingQuery) relation planned
  rw [if_neg (by simp [runs])] at htext
  have hu : assemble source.text =
      .ok (queryUnit renotingQuery.paramCount part.name (.execute renotingOperation)) := by
    rw [htext]
    exact assemble_execute (by decide) wellFormed rereads
  obtain ⟨_, _, _, _, explanation, program, -, -, -, -, -, -, asked, -⟩ :=
    explanations_agree declared read runs hsource hu
  exact ⟨source, _, explanation, hsource, hu, _, program, asked _ _ _⟩

end Listing

end TemporalDB
