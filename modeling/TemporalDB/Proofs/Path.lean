import Mathlib.Data.List.Basic
import TemporalDB.Path
import TemporalDB.Proofs.Text.Line

/-!
# Names below a path

A path joined with the name of a file has the pieces of the path and, as its last one, the name. The
parent that is read off such a path leads the same way as the path that was joined, though points
and doubled slashes are gone from it.
-/

namespace TemporalDB

open Text

/-- A name that a file can have in a directory. -/
structure IsFileName (name : String) : Prop where
  plain : '/' ∉ name.toList
  nonempty : name ≠ ""
  notHere : name ≠ "."
  notAbove : name ≠ ".."

theorem isFileName_append {name ending : String} (plain : '/' ∉ name.toList) (plain' : '/' ∉ ending.toList)
    (long : 2 < ending.toList.length) : IsFileName (name ++ ending) := by
  have length : ∀ short : String, short.toList.length ≤ 2 → name ++ ending ≠ short := by
    intro short hshort same
    rw [← same, String.toList_append, List.length_append] at hshort
    omega
  refine ⟨?_, length "" (by decide), length "." (by decide), length ".." (by decide)⟩
  rw [String.toList_append, List.mem_append, not_or]
  exact ⟨plain, plain'⟩

namespace Path

variable {p : Path} {name front back : String} {named : List String}

/-- Whether a piece leads somewhere: it is neither empty nor a single point. -/
def leads (piece : String) : Bool := piece ≠ "" && piece ≠ "."

def lead (p : Path) : String :=
  if p.text.isEmpty then "" else if p.endsInSlash then p.text else p.text ++ "/"

def stem (p : Path) : List String := (Path.mk p.lead).pieces.dropLast

theorem leads_of_isFileName (h : IsFileName name) : leads name = true := by
  simp [leads, h.nonempty, h.notHere]

/-! ## Pieces -/

theorem pieces_of_plain (h : '/' ∉ name.toList) : pieces ⟨name⟩ = [name] := by
  unfold pieces
  rw [splitAt_eq_self h, List.map_singleton, String.ofList_toList]

theorem pieces_append_slash : pieces ⟨front ++ "/" ++ back⟩ = pieces ⟨front⟩ ++ pieces ⟨back⟩ := by
  unfold pieces
  rw [String.toList_append, String.toList_append, List.append_assoc]
  change (splitAt '/' (front.toList ++ '/' :: back.toList)).map _ = _
  rw [splitAt_append, List.map_append]

theorem pieces_slash : pieces ⟨front ++ "/"⟩ = pieces ⟨front⟩ ++ [""] := by
  have h : front ++ "/" = front ++ "/" ++ "" := String.append_empty.symm
  rw [h, pieces_append_slash]
  rfl

/-- A path that ends in a slash is what stands before the slash, and the slash. -/
theorem exists_of_endsInSlash (h : p.endsInSlash = true) : ∃ front, p.text = front ++ "/" := by
  simp only [endsInSlash, decide_eq_true_eq] at h
  obtain ⟨front, hfront⟩ := List.getLast?_eq_some_iff.mp h
  refine ⟨String.ofList front, ?_⟩
  rw [← String.toList_inj, hfront, String.toList_append, String.toList_ofList]
  rfl

/-- Nothing is written before a name, or what is written ends in a slash. -/
theorem lead_cases (p : Path) :
    p.text = "" ∧ p.lead = "" ∨ p.text ≠ "" ∧ ∃ front, p.lead = front ++ "/" := by
  by_cases empty : p.text = ""
  · refine Or.inl ⟨empty, ?_⟩
    rw [lead, if_pos (String.isEmpty_iff.mpr empty)]
  · refine Or.inr ⟨empty, ?_⟩
    rw [lead, if_neg (by rwa [String.isEmpty_iff])]
    split
    · next slash => exact exists_of_endsInSlash slash
    · exact ⟨p.text, rfl⟩

theorem pieces_lead_append : pieces ⟨p.lead ++ name⟩ = p.stem ++ pieces ⟨name⟩ := by
  unfold stem
  rcases lead_cases p with ⟨-, empty⟩ | ⟨-, front, hfront⟩
  · rw [empty, String.empty_append]
    rfl
  · rw [hfront, pieces_append_slash, pieces_slash, List.dropLast_concat]

/-- The pieces that lead somewhere are the same before a name and at the end of a path. -/
theorem filter_stem : p.stem.filter leads = p.pieces.filter leads := by
  have stem : p.stem.filter leads = (pieces ⟨p.lead⟩).filter leads := by
    have h := @pieces_lead_append p ""
    rw [String.append_empty] at h
    rw [h, List.filter_append]
    exact (List.append_nil _).symm
  rw [stem]
  unfold lead
  split
  · next empty => rw [← String.isEmpty_iff.mp empty]
  · split
    · rfl
    · rw [pieces_slash, List.filter_append]
      exact List.append_nil _

/-- A path is its named pieces and the blank ones that slashes at its end make. -/
theorem exists_pieces (p : Path) : ∃ blanks, p.pieces = p.named ++ blanks ∧
    ∀ piece ∈ blanks, piece = "" := by
  refine ⟨(p.pieces.reverse.takeWhile (· = "")).reverse, ?_, ?_⟩
  · unfold named
    rw [← List.reverse_append, List.takeWhile_append_dropWhile, List.reverse_reverse]
  · intro piece hpiece
    rw [List.mem_reverse] at hpiece
    have blank := List.mem_takeWhile_imp hpiece
    exact of_decide_eq_true blank

theorem filter_named (p : Path) : p.named.filter leads = p.pieces.filter leads := by
  obtain ⟨blanks, pieces, blank⟩ := p.exists_pieces
  symm
  rw [pieces, List.filter_append, List.append_right_eq_self, List.filter_eq_nil_iff]
  intro piece hpiece
  rw [blank piece hpiece]
  decide

/-! ## Joining a name -/

theorem not_isAbsolute_of_plain (h : '/' ∉ name.toList) : isAbsolute ⟨name⟩ = false := by
  simp only [isAbsolute, decide_eq_false_iff_not]
  intro head
  exact h (List.mem_of_head? head)

theorem join_eq (h : '/' ∉ name.toList) : p.join name = ⟨p.lead ++ name⟩ := by
  unfold join lead
  rw [not_isAbsolute_of_plain h, Bool.false_or]
  split
  · rw [String.empty_append]
  · by_cases slash : p.text.toList.getLast? = some '/'
    · rw [if_pos slash, if_pos (by simpa [endsInSlash] using slash)]
    · rw [if_neg slash, if_neg (by simpa [endsInSlash] using slash)]

/-- **A name is the last piece of the path it is joined to.** -/
theorem pieces_join (h : '/' ∉ name.toList) : (p.join name).pieces = p.stem ++ [name] := by
  rw [join_eq h, pieces_lead_append, pieces_of_plain h]

theorem isAbsolute_join (h : '/' ∉ name.toList) : (p.join name).isAbsolute = p.isAbsolute := by
  have head : p.text ≠ "" → p.lead.toList.head? = p.text.toList.head? := by
    intro full
    unfold lead
    rw [if_neg (by rwa [String.isEmpty_iff])]
    split
    · rfl
    · have some : p.text.toList ≠ [] := fun h => full (String.toList_eq_nil_iff.mp h)
      rw [String.toList_append, List.head?_append_of_ne_nil _ some]
  rcases lead_cases p with ⟨empty, hlead⟩ | ⟨full, front, hfront⟩
  · rw [join_eq h, hlead, String.empty_append, not_isAbsolute_of_plain h]
    unfold isAbsolute
    rw [empty]
    rfl
  · have some : p.lead.toList ≠ [] := by
      rw [hfront, String.toList_append]
      exact List.concat_ne_nil _ _
    unfold isAbsolute
    rw [join_eq h, String.toList_append, List.head?_append_of_ne_nil _ some, head full]

theorem endsInSlash_join (h : IsFileName name) : (p.join name).endsInSlash = false := by
  have full : name.toList ≠ [] := fun hn => h.nonempty (String.toList_eq_nil_iff.mp hn)
  simp only [endsInSlash, decide_eq_false_iff_not]
  rw [join_eq h.plain, String.toList_append, List.getLast?_append_of_ne_nil _ full]
  intro last
  exact h.plain (List.mem_of_getLast? last)

theorem text_join_ne_empty (h : IsFileName name) : (p.join name).text ≠ "" := by
  rw [join_eq h.plain]
  intro empty
  exact h.nonempty (String.append_eq_empty_iff.mp empty).2

theorem named_join (h : IsFileName name) : (p.join name).named = p.stem ++ [name] := by
  unfold named
  rw [pieces_join h.plain, List.reverse_append, List.reverse_singleton, List.singleton_append,
    List.dropWhile_cons_of_neg (by simpa using h.nonempty), List.reverse_cons, List.reverse_reverse]

theorem utf8ByteSize_join (h : '/' ∉ name.toList) :
    (p.join name).text.utf8ByteSize = p.lead.utf8ByteSize + name.utf8ByteSize := by
  rw [join_eq h, String.utf8ByteSize_append]

theorem utf8ByteSize_le_lead : p.text.utf8ByteSize ≤ p.lead.utf8ByteSize := by
  unfold lead
  split
  · next empty => exact Nat.le_of_eq (congrArg String.utf8ByteSize (String.isEmpty_iff.mp empty))
  · split
    · exact Nat.le_refl _
    · rw [String.utf8ByteSize_append]
      exact Nat.le_add_right _ _

theorem mem_join {c : Char} (h : '/' ∉ name.toList) (hc : c ≠ '/') :
    c ∈ (p.join name).text.toList ↔ c ∈ p.text.toList ∨ c ∈ name.toList := by
  rw [join_eq h, String.toList_append, List.mem_append]
  apply or_congr_left
  unfold lead
  split
  · next empty =>
      rw [String.isEmpty_iff.mp empty]
  · split
    · rfl
    · rw [String.toList_append, List.mem_append]
      exact or_iff_left (fun slash => hc (List.mem_singleton.mp slash))

/-! ## Names with slashes -/

/-- What stands before the last slash of a name can be joined first. -/
theorem join_append_slash (h : '/' ∉ name.toList) :
    p.join (front ++ "/" ++ name) = (p.join (front ++ "/")).join name := by
  have absolute : isAbsolute ⟨front ++ "/" ++ name⟩ = isAbsolute ⟨front ++ "/"⟩ := by
    unfold isAbsolute
    rw [String.toList_append, List.head?_append_of_ne_nil]
    rw [String.toList_append]
    exact List.concat_ne_nil _ _
  -- A text that ends in a slash is joined with a name by writing the name after it.
  have joined : ∀ text, (Path.mk (text ++ "/")).join name = ⟨text ++ "/" ++ name⟩ := by
    intro text
    have full : ¬ (text ++ "/").isEmpty = true := by
      rw [String.isEmpty_iff, String.append_eq_empty_iff]
      exact fun empty => absurd empty.2 (by decide)
    have slash : (Path.mk (text ++ "/")).endsInSlash = true := by
      simp [endsInSlash]
    rw [join_eq h, lead, if_neg full, if_pos slash]
  unfold join
  rw [absolute]
  split
  · exact (joined front).symm
  · split
    · have grouped : p.text ++ (front ++ "/" ++ name) = p.text ++ front ++ "/" ++ name := by
        simp only [String.append_assoc]
      have grouped' : p.text ++ (front ++ "/") = p.text ++ front ++ "/" := by
        simp only [String.append_assoc]
      rw [grouped, grouped']
      exact (joined _).symm
    · have grouped : p.text ++ "/" ++ (front ++ "/" ++ name) =
          p.text ++ "/" ++ front ++ "/" ++ name := by
        simp only [String.append_assoc]
      have grouped' : p.text ++ "/" ++ (front ++ "/") = p.text ++ "/" ++ front ++ "/" := by
        simp only [String.append_assoc]
      rw [grouped, grouped']
      exact (joined _).symm

/-- A name is plain, or its last piece stands after a slash. -/
theorem plain_or_exists_slash (name : String) : '/' ∉ name.toList ∨
    ∃ front back : String, '/' ∉ back.toList ∧ name = front ++ "/" ++ back := by
  by_cases slash : '/' ∈ name.toList
  · obtain ⟨back, front, reversed, plain⟩ :=
      List.eq_append_cons_of_mem (List.mem_reverse.mpr slash)
    refine Or.inr ⟨.ofList front.reverse, .ofList back.reverse, ?_, ?_⟩
    · rwa [String.toList_ofList, List.mem_reverse]
    · rw [← String.toList_inj, String.toList_append, String.toList_append, String.toList_ofList,
        String.toList_ofList, ← List.reverse_reverse name.toList, reversed]
      simp
  · exact Or.inl slash

/-- **The files of one name lie in one directory** and begin alike there: with the last piece of the
name. -/
theorem exists_join_append (p : Path) (name : String) : ∃ (q : Path) (base : String),
    '/' ∉ base.toList ∧ ∀ ending : String, '/' ∉ ending.toList →
      p.join (name ++ ending) = q.join (base ++ ending) := by
  rcases plain_or_exists_slash name with plain | ⟨front, base, plain, rfl⟩
  · exact ⟨p, name, plain, fun _ _ => rfl⟩
  · refine ⟨p.join (front ++ "/"), base, plain, ?_⟩
    intro ending plain'
    rw [String.append_assoc]
    apply join_append_slash
    rw [String.toList_append, List.mem_append, not_or]
    exact ⟨plain, plain'⟩

/-! ## Parts and parents -/

theorem plain_of_mem_pieces {piece : String} (h : piece ∈ p.pieces) : '/' ∉ piece.toList := by
  obtain ⟨chars, hchars, rfl⟩ := List.mem_map.mp h
  rw [String.toList_ofList]
  exact not_mem_of_mem_splitAt chars hchars

/-- The pieces of a path are those before a name and what a slash at the end makes. -/
theorem pieces_cases (h : p.text ≠ "") :
    p.stem ≠ [] ∧ (p.pieces = p.stem ∨ p.pieces = p.stem ++ [""]) := by
  by_cases slash : p.endsInSlash = true
  · obtain ⟨front, hfront⟩ := exists_of_endsInSlash slash
    have stem : p.stem = pieces ⟨front⟩ := by
      rw [stem, lead, if_neg (by rwa [String.isEmpty_iff]), if_pos slash, hfront, pieces_slash,
        List.dropLast_concat]
    have full : p.pieces = p.stem ++ [""] := by
      obtain ⟨text⟩ := p
      subst hfront
      rw [stem, pieces_slash]
    refine ⟨?_, Or.inr full⟩
    rw [stem]
    exact mt List.map_eq_nil_iff.mp splitAt_ne_nil
  · have stem : p.stem = p.pieces := by
      rw [stem, lead, if_neg (by rwa [String.isEmpty_iff]), if_neg slash, pieces_slash,
        List.dropLast_concat]
    refine ⟨?_, Or.inl stem.symm⟩
    rw [stem]
    exact mt List.map_eq_nil_iff.mp splitAt_ne_nil

theorem head?_stem_append (h : IsFileName name) :
    (p.stem ++ [name]).head? = some "." ↔ p.pieces.head? = some "." := by
  by_cases empty : p.text = ""
  · obtain ⟨text⟩ := p
    subst empty
    constructor
    · intro here
      exact absurd (Option.some.inj here) h.notHere
    · intro here
      exact absurd (Option.some.inj here) (by decide : "" ≠ ".")
  · obtain ⟨full, pieces⟩ := pieces_cases empty
    rw [List.head?_append_of_ne_nil _ full]
    rcases pieces with pieces | pieces
    · rw [pieces]
    · rw [pieces, List.head?_append_of_ne_nil _ full]

/-- **A name is the last part of the path it is joined to.** -/
theorem parts_join (h : IsFileName name) : (p.join name).parts = p.parts ++ [name] := by
  have named : (p.join name).pieces.filter leads = p.pieces.filter leads ++ [name] := by
    rw [pieces_join h.plain, List.filter_append, filter_stem,
      List.filter_cons_of_pos (leads_of_isFileName h), List.filter_nil]
  unfold parts
  rw [show (fun s => decide (s ≠ "") && decide (s ≠ ".")) = leads from rfl, named,
    isAbsolute_join h.plain, pieces_join h.plain]
  dsimp only
  split
  · rfl
  · by_cases here : p.pieces.head? = some "."
    · rw [if_pos ((head?_stem_append h).mpr here), if_pos here]
      rfl
    · rw [if_neg (mt (head?_stem_append h).mp here), if_neg here]

theorem parts_join_inj {other : String} (h : IsFileName name) (h' : IsFileName other)
    (same : (p.join name).parts = (p.join other).parts) : name = other := by
  rw [parts_join h, parts_join h'] at same
  exact List.singleton_inj.mp (List.append_cancel_left same)

theorem parent_join (h : IsFileName name) : (p.join name).parent = some (ofParts p.parts) := by
  have notRoot : name ≠ "/" := by
    rintro rfl
    exact h.plain (List.mem_singleton.mpr rfl)
  unfold parent
  rw [parts_join h, List.getLast?_concat, List.dropLast_concat]
  split
  · next h' => cases h'
  · next h' => exact absurd (Option.some.inj h') notRoot
  · rfl

theorem fileName_join (h : IsFileName name) : (p.join name).fileName = some name := by
  have notRoot : name ≠ "/" := by
    rintro rfl
    exact h.plain (List.mem_singleton.mpr rfl)
  unfold fileName
  rw [parts_join h, List.getLast?_concat, Option.filter_some]
  simp [notRoot, h.notHere, h.notAbove]

theorem pieces_intercalate (h : ∀ piece ∈ named, '/' ∉ piece.toList) (full : named ≠ []) :
    pieces ⟨String.intercalate "/" named⟩ = named := by
  induction named with
  | nil => exact absurd rfl full
  | cons piece rest ih =>
      obtain ⟨plain, hrest⟩ := List.forall_mem_cons.mp h
      cases rest with
      | nil =>
          rw [String.intercalate_singleton]
          exact pieces_of_plain plain
      | cons next others =>
          rw [String.intercalate_cons_cons, pieces_append_slash, pieces_of_plain plain,
            ih hrest (List.cons_ne_nil _ _), List.singleton_append]

/-- Pieces between slashes are those of the text that they make, where they lead. -/
theorem filter_pieces_intercalate (h : ∀ piece ∈ named, '/' ∉ piece.toList) :
    (pieces ⟨String.intercalate "/" named⟩).filter leads = named.filter leads := by
  by_cases full : named = []
  · rw [full]
    rfl
  · rw [pieces_intercalate h full]

theorem not_isAbsolute_intercalate (h : ∀ piece ∈ named, '/' ∉ piece.toList)
    (head : ∀ piece ∈ named.head?, piece ≠ "") :
    isAbsolute ⟨String.intercalate "/" named⟩ = false := by
  cases named with
  | nil => rfl
  | cons piece rest =>
      have full : piece.toList ≠ [] := fun hp => head piece rfl (String.toList_eq_nil_iff.mp hp)
      have first : (String.intercalate "/" (piece :: rest)).toList.head? = piece.toList.head? := by
        cases rest with
        | nil => rw [String.intercalate_singleton]
        | cons next others =>
            rw [String.intercalate_cons_cons, String.toList_append, String.toList_append,
              List.append_assoc, List.head?_append_of_ne_nil _ full]
      have plain := not_isAbsolute_of_plain (h piece List.mem_cons_self)
      unfold isAbsolute at plain ⊢
      rw [first]
      exact plain

theorem plain_of_mem_filter_pieces : ∀ piece ∈ p.pieces.filter leads, '/' ∉ piece.toList :=
  fun _ h => plain_of_mem_pieces (List.mem_of_mem_filter h)

/-- The parts of a path are the pieces that lead on, after the root or the dot that it begins with. -/
theorem parts_cases (p : Path) :
    p.isAbsolute = true ∧ p.parts = "/" :: p.pieces.filter leads ∨
    p.isAbsolute = false ∧
      (p.pieces.head? = some "." ∧ p.parts = "." :: p.pieces.filter leads ∨
        p.parts = p.pieces.filter leads) := by
  by_cases absolute : p.isAbsolute = true
  · exact Or.inl ⟨absolute, if_pos absolute⟩
  · refine Or.inr ⟨Bool.not_eq_true _ ▸ absolute, ?_⟩
    by_cases here : p.pieces.head? = some "."
    · exact Or.inl ⟨here, (if_neg absolute).trans (if_pos here)⟩
    · exact Or.inr ((if_neg absolute).trans (if_neg here))

theorem ofParts_root (plain : ∀ piece ∈ named, '/' ∉ piece.toList) :
    (ofParts ("/" :: named)).isAbsolute = true ∧
      (ofParts ("/" :: named)).pieces.filter leads = named.filter leads := by
  have text : ofParts ("/" :: named) = ⟨"" ++ "/" ++ String.intercalate "/" named⟩ := rfl
  rw [text]
  constructor
  · simp [isAbsolute]
  · rw [pieces_append_slash, List.filter_append, filter_pieces_intercalate plain]
    rfl

theorem ofParts_of_plain (plain : ∀ piece ∈ named, '/' ∉ piece.toList) :
    ofParts named = ⟨String.intercalate "/" named⟩ := by
  unfold ofParts
  split
  · exact absurd (List.mem_singleton.mpr rfl) (plain "/" List.mem_cons_self)
  · rfl

theorem ofParts_names (plain : ∀ piece ∈ named, '/' ∉ piece.toList)
    (head : ∀ piece ∈ named.head?, piece ≠ "") :
    (ofParts named).isAbsolute = false ∧
      (ofParts named).pieces.filter leads = named.filter leads := by
  rw [ofParts_of_plain plain]
  exact ⟨not_isAbsolute_intercalate plain head, filter_pieces_intercalate plain⟩

/-- **The path of the parts of a path leads the same way.** -/
theorem ofParts_parts (p : Path) : (ofParts p.parts).isAbsolute = p.isAbsolute ∧
    (ofParts p.parts).pieces.filter leads = p.pieces.filter leads := by
  have plain := plain_of_mem_filter_pieces (p := p)
  have twice : (p.pieces.filter leads).filter leads = p.pieces.filter leads := by
    rw [List.filter_filter, show (fun a => leads a && leads a) = leads from
      funext fun a => Bool.and_self _]
  rcases p.parts_cases with ⟨absolute, parts⟩ | ⟨relative, ⟨-, parts⟩ | parts⟩
  · obtain ⟨root, same⟩ := ofParts_root plain
    rw [parts, absolute]
    exact ⟨root, same.trans twice⟩
  · have plain' : ∀ piece ∈ "." :: p.pieces.filter leads, '/' ∉ piece.toList :=
      List.forall_mem_cons.mpr ⟨by decide, plain⟩
    obtain ⟨here, same⟩ := ofParts_names plain' (by simp)
    rw [parts, relative]
    rw [List.filter_cons_of_neg (by decide), twice] at same
    exact ⟨here, same⟩
  · obtain ⟨here, same⟩ := ofParts_names plain fun piece head empty => by
      have leading := (List.mem_filter.mp (List.mem_of_head? head)).2
      rw [empty] at leading
      cases leading
    rw [parts, relative]
    exact ⟨here, same.trans twice⟩

end Path

end TemporalDB
