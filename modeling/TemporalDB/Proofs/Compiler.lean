import TemporalDB.Compiler
import TemporalDB.Proofs.Path
import TemporalDB.Proofs.Text.Replacement

/-!
# What becomes of the arguments of a command

The arguments of a command have placeholders for the paths of the listing and of the unit. To put
both in at once is to copy the argument with the paths in place of its own placeholders. The command
gets the path of the listing put in first and that of the unit after that, which is the same unless
the first step makes a placeholder that the argument did not have. Main statement:
`expand_simultaneous_iff`.
-/

namespace TemporalDB.Compiler

open Text

variable {c : Char} {source artifact rest : List Char}

def sourceMark : List Char := "{source}".toList

def artifactMark : List Char := "{artifact}".toList

/-- An argument with both paths put in at once: each placeholder of the argument gives way to its
path, and every other character is kept. -/
def substituted (source artifact : List Char) : List Char → List Char
  | [] => []
  | c :: rest =>
    if sourceMark.isPrefixOf (c :: rest) then
      source ++ substituted source artifact (rest.drop (sourceMark.length - 1))
    else if artifactMark.isPrefixOf (c :: rest) then
      artifact ++ substituted source artifact (rest.drop (artifactMark.length - 1))
    else c :: substituted source artifact rest
termination_by s => s.length
decreasing_by all_goals simp only [List.length_cons, List.length_drop]; omega

/-- An argument with both paths put in at once. -/
def simultaneously (source artifact : Path) (arg : String) : String :=
  String.ofList (substituted source.text.toList artifact.text.toList arg.toList)

/-! ## The two placeholders -/

theorem isPlaceholder_sourceMark : IsPlaceholder sourceMark :=
  ⟨['s', 'o', 'u', 'r', 'c', 'e', '}'], by decide, by decide⟩

theorem isPlaceholder_artifactMark : IsPlaceholder artifactMark :=
  ⟨['a', 'r', 't', 'i', 'f', 'a', 'c', 't', '}'], by decide, by decide⟩

theorem marks_apart : ¬sourceMark <+: artifactMark ∧ ¬artifactMark <+: sourceMark := by decide

theorem not_sourceMark_begins_artifactMark : ¬sourceMark <+: artifactMark ++ rest := by
  intro begins
  exact absurd (List.cons_prefix_cons.mp (List.cons_prefix_cons.mp begins).2).1 (by decide)

/-! ## Putting both paths in at once -/

theorem substituted_source (rest : List Char) :
    substituted source artifact (sourceMark ++ rest) = source ++ substituted source artifact rest := by
  have begins : sourceMark.isPrefixOf (sourceMark ++ rest) = true :=
    List.isPrefixOf_iff_prefix.mpr ⟨rest, rfl⟩
  obtain ⟨name, mark, -⟩ := isPlaceholder_sourceMark
  rw [mark, List.cons_append] at begins ⊢
  rw [substituted, mark, if_pos begins, List.length_cons, Nat.add_sub_cancel, List.drop_left]

theorem substituted_artifact (rest : List Char) :
    substituted source artifact (artifactMark ++ rest) =
      artifact ++ substituted source artifact rest := by
  have none : ¬sourceMark.isPrefixOf (artifactMark ++ rest) = true := fun begins =>
    not_sourceMark_begins_artifactMark (List.isPrefixOf_iff_prefix.mp begins)
  have begins : artifactMark.isPrefixOf (artifactMark ++ rest) = true :=
    List.isPrefixOf_iff_prefix.mpr ⟨rest, rfl⟩
  obtain ⟨name, mark, -⟩ := isPlaceholder_artifactMark
  rw [mark, List.cons_append] at none begins ⊢
  rw [substituted, if_neg none, mark, if_pos begins, List.length_cons, Nat.add_sub_cancel,
    List.drop_left]

theorem substituted_cons (noSource : ¬sourceMark <+: c :: rest)
    (noArtifact : ¬artifactMark <+: c :: rest) :
    substituted source artifact (c :: rest) = c :: substituted source artifact rest := by
  rw [substituted, if_neg fun begins => noSource (List.isPrefixOf_iff_prefix.mp begins),
    if_neg fun begins => noArtifact (List.isPrefixOf_iff_prefix.mp begins)]

/-- An argument is empty, or begins with a placeholder, or with another character. -/
theorem argument_induction {motive : List Char → Prop} (nil : motive [])
    (source : ∀ rest, motive rest → motive (sourceMark ++ rest))
    (artifact : ∀ rest, motive rest → motive (artifactMark ++ rest))
    (other : ∀ c rest, ¬sourceMark <+: c :: rest → ¬artifactMark <+: c :: rest → motive rest →
      motive (c :: rest)) (arg : List Char) : motive arg :=
  segment_induction [sourceMark, artifactMark] (by decide) nil
    (List.forall_mem_cons.mpr ⟨source, List.forall_mem_singleton.mpr artifact⟩)
    (fun c rest none => other c rest (none _ List.mem_cons_self)
      (none _ (List.mem_cons_of_mem _ List.mem_cons_self))) arg

/-! ## Putting the paths in one after the other -/

theorem replace_artifact (rest : List Char) :
    replace sourceMark source (artifactMark ++ rest) =
      artifactMark ++ replace sourceMark source rest :=
  isPlaceholder_sourceMark.replace_other_append isPlaceholder_artifactMark marks_apart.1
    marks_apart.2 rest

theorem occurrences_source (rest : List Char) :
    occurrences artifactMark (sourceMark ++ rest) = occurrences artifactMark rest :=
  isPlaceholder_artifactMark.occurrences_other_append isPlaceholder_sourceMark marks_apart.2
    marks_apart.1 rest

/-- Putting in the path of the listing takes no placeholder of the unit away. -/
theorem occurrences_le_replace (source arg : List Char) :
    occurrences artifactMark arg ≤ occurrences artifactMark (replace sourceMark source arg) := by
  have mark := isPlaceholder_artifactMark
  induction arg using argument_induction with
  | nil => exact Nat.le_of_eq (by rw [replace])
  | source rest ih =>
      rw [occurrences_source, replace_pattern isPlaceholder_sourceMark.ne_nil]
      exact Nat.le_trans ih (occurrences_le_append source)
  | artifact rest ih =>
      rw [replace_artifact, mark.occurrences_pattern_append, mark.occurrences_pattern_append]
      exact Nat.succ_le_succ ih
  | other c rest noSource noArtifact ih =>
      rw [occurrences_cons noArtifact, replace_cons noSource]
      exact Nat.le_trans ih occurrences_le_cons

theorem length_substituted (source artifact arg : List Char) :
    (substituted source artifact arg).length + occurrences artifactMark arg * artifactMark.length =
      (replace sourceMark source arg).length + occurrences artifactMark arg * artifact.length := by
  have mark := isPlaceholder_artifactMark
  induction arg using argument_induction with
  | nil => rw [replace, substituted, occurrences_nil mark.ne_nil, Nat.zero_mul, Nat.zero_mul]
  | source rest ih =>
      rw [substituted_source, occurrences_source, replace_pattern isPlaceholder_sourceMark.ne_nil,
        List.length_append, List.length_append]
      omega
  | artifact rest ih =>
      rw [substituted_artifact, replace_artifact, mark.occurrences_pattern_append,
        List.length_append, List.length_append, Nat.succ_mul, Nat.succ_mul]
      omega
  | other c rest noSource noArtifact ih =>
      rw [substituted_cons noSource noArtifact, replace_cons noSource, occurrences_cons noArtifact,
        List.length_cons, List.length_cons]
      omega

/-- At a placeholder of the unit an argument falls into two parts, and the paths are put in at once
if they are in each part. -/
theorem replace_append_artifact_eq_iff (front arg : List Char) :
    replace artifactMark artifact (front ++ (artifactMark ++ replace sourceMark source arg)) =
        front ++ (artifact ++ substituted source artifact arg) ↔
      replace artifactMark artifact front = front ∧
        replace artifactMark artifact (replace sourceMark source arg) =
          substituted source artifact arg := by
  have mark := isPlaceholder_artifactMark
  have parts : replace artifactMark artifact (front ++ (artifactMark ++ replace sourceMark source arg)) =
      replace artifactMark artifact front ++
        (artifact ++ replace artifactMark artifact (replace sourceMark source arg)) := by
    rw [mark.replace_append, replace_pattern mark.ne_nil]
    rintro _ ⟨⟩
    rfl
  rw [parts]
  constructor
  · intro same
    -- the places of the unit can be told apart only if nothing before them moves
    have size : (replace artifactMark artifact front).length = front.length := by
      have before := mark.length_replace artifact front
      have after := mark.length_replace artifact (replace sourceMark source arg)
      have target := length_substituted source artifact arg
      have total := congrArg List.length same
      simp only [List.length_append] at total
      obtain ⟨more, there⟩ := Nat.exists_eq_add_of_le (occurrences_le_replace source arg)
      rw [there, Nat.add_mul, Nat.add_mul] at after
      have balance : (occurrences artifactMark front + more) * artifactMark.length =
          (occurrences artifactMark front + more) * artifact.length := by
        rw [Nat.add_mul, Nat.add_mul]
        omega
      rcases Nat.eq_zero_or_pos (occurrences artifactMark front + more) with none | some
      · rw [(Nat.add_eq_zero_iff.mp none).1, Nat.zero_mul, Nat.zero_mul] at before
        exact before
      · rw [Nat.eq_of_mul_eq_mul_left some balance] at before
        exact Nat.add_right_cancel before
    obtain ⟨first, others⟩ := List.append_inj same size
    exact ⟨first, List.append_cancel_left others⟩
  · rintro ⟨first, others⟩
    rw [first, others]

/-- **One path after the other is both at once if no placeholder arises**, or the path of the unit
is the placeholder itself. -/
theorem replace_replace_eq_iff (source artifact front arg : List Char) :
    replace artifactMark artifact (front ++ replace sourceMark source arg) =
        front ++ substituted source artifact arg ↔
      artifact = artifactMark ∨
        occurrences artifactMark (front ++ replace sourceMark source arg) =
          occurrences artifactMark arg := by
  have mark := isPlaceholder_artifactMark
  induction arg using argument_induction generalizing front with
  | nil =>
      rw [replace, substituted, List.append_nil, mark.replace_eq_self_iff,
        occurrences_nil mark.ne_nil]
  | source rest ih =>
      rw [replace_pattern isPlaceholder_sourceMark.ne_nil, substituted_source, occurrences_source,
        ← List.append_assoc, ← List.append_assoc]
      exact ih (front ++ source)
  | artifact rest ih =>
      -- at a placeholder the argument falls apart, and nothing stands in front of what is behind
      have later : replace artifactMark artifact (replace sourceMark source rest) =
          substituted source artifact rest ↔ artifact = artifactMark ∨
            occurrences artifactMark (replace sourceMark source rest) =
              occurrences artifactMark rest := ih []
      have fewer := occurrences_le_replace source rest
      rw [replace_artifact, substituted_artifact, replace_append_artifact_eq_iff,
        mark.replace_eq_self_iff, later, mark.occurrences_append, mark.occurrences_pattern_append,
        mark.occurrences_pattern_append]
      · rw [← or_and_left]
        exact or_congr_right (by omega)
      · rintro _ ⟨⟩
        rfl
  | other c rest noSource noArtifact ih =>
      rw [replace_cons noSource, substituted_cons noSource noArtifact, occurrences_cons noArtifact,
        List.append_cons front c (replace _ _ _), List.append_cons front c (substituted _ _ _)]
      exact ih (front ++ [c])

theorem expand_eq_simultaneously_iff {source artifact : Path} {arg : String} :
    expand source artifact arg = simultaneously source artifact arg ↔
      artifact.text = "{artifact}" ∨
        occurrences artifactMark (replace sourceMark source.text.toList arg.toList) =
          occurrences artifactMark arg.toList := by
  have both := replace_replace_eq_iff source.text.toList artifact.text.toList [] arg.toList
  rw [List.nil_append, List.nil_append] at both
  have names : artifact.text.toList = artifactMark ↔ artifact.text = "{artifact}" :=
    String.toList_inj
  have steps : expand source artifact arg = String.ofList (replace artifactMark artifact.text.toList
      (replace sourceMark source.text.toList arg.toList)) := rfl
  rw [← names, ← both, steps, simultaneously, ← String.toList_inj, String.toList_ofList,
    String.toList_ofList]

/-! ## Listings of directories without braces -/

/-- Characters up to a closing brace come out of an argument only if they stand in it, unless the
path that is put in has braces or is among them. -/
theorem begins_of_begins_replace {word : List Char} (noBrace : '{' ∉ word) (noPoint : '.' ∉ word)
    (closing : '}' ∉ source) (point : '.' ∈ source) (arg : List Char)
    (begins : word ++ ['}'] <+: replace sourceMark source arg) : word ++ ['}'] <+: arg := by
  induction arg using argument_induction generalizing word with
  | nil =>
      rw [replace, List.prefix_nil] at begins
      exact absurd begins (List.append_ne_nil_of_right_ne_nil _ (List.cons_ne_nil _ _))
  | source rest ih =>
      rw [replace_pattern isPlaceholder_sourceMark.ne_nil] at begins
      -- the path has no closing brace, so the word would hold the whole of it, with its point
      rcases List.prefix_or_prefix_of_prefix begins ⟨_, rfl⟩ with within | beyond
      · exact absurd (within.subset (List.mem_append_right word List.mem_cons_self)) closing
      · rcases List.mem_append.mp (beyond.subset point) with there | there
        · exact absurd there noPoint
        · exact absurd there (by decide)
  | artifact rest ih =>
      rw [replace_artifact] at begins
      obtain ⟨name, mark, -⟩ := isPlaceholder_artifactMark
      rw [mark, List.cons_append] at begins
      cases word with
      | nil => exact absurd (List.cons_prefix_cons.mp begins).1 (by decide)
      | cons d word =>
          have brace := (List.cons_prefix_cons.mp begins).1
          exact absurd (brace ▸ List.mem_cons_self) noBrace
  | other c rest noSource noArtifact ih =>
      rw [replace_cons noSource] at begins
      cases word with
      | nil =>
          obtain ⟨same, -⟩ := List.cons_prefix_cons.mp begins
          exact ⟨rest, by rw [← same]; rfl⟩
      | cons d word =>
          obtain ⟨same, others⟩ := List.cons_prefix_cons.mp begins
          have later := ih (fun mem => noBrace (List.mem_cons_of_mem d mem))
            (fun mem => noPoint (List.mem_cons_of_mem d mem)) others
          exact List.cons_prefix_cons.mpr ⟨same, later⟩

/-- A path without braces, but with a point, makes no placeholder. -/
theorem occurrences_replace_of_plain (opening : '{' ∉ source) (closing : '}' ∉ source)
    (point : '.' ∈ source) (arg : List Char) :
    occurrences artifactMark (replace sourceMark source arg) = occurrences artifactMark arg := by
  have mark := isPlaceholder_artifactMark
  induction arg using argument_induction with
  | nil => rw [replace]
  | source rest ih =>
      rw [replace_pattern isPlaceholder_sourceMark.ne_nil, mark.occurrences_plain_append opening,
        occurrences_source, ih]
  | artifact rest ih =>
      rw [replace_artifact, mark.occurrences_pattern_append, mark.occurrences_pattern_append, ih]
  | other c rest noSource noArtifact ih =>
      have none : ¬artifactMark <+: c :: replace sourceMark source rest := by
        intro begins
        have letters : artifactMark = '{' :: (['a', 'r', 't', 'i', 'f', 'a', 'c', 't'] ++ ['}']) := by
          decide
        rw [letters] at begins noArtifact
        obtain ⟨same, others⟩ := List.cons_prefix_cons.mp begins
        have later := begins_of_begins_replace (by decide) (by decide) closing point rest others
        exact noArtifact (List.cons_prefix_cons.mpr ⟨same, later⟩)
      rw [replace_cons noSource, occurrences_cons none, occurrences_cons noArtifact, ih]

/-- **In a directory without braces in its name the paths are put in at once**, whatever the
argument is. -/
theorem expand_sourcePath {config : Configuration} {name : String} (plain : '/' ∉ name.toList)
    (noBrace : ∀ c ∈ ['{', '}'], c ∉ config.workDir.text.toList ∧ c ∉ name.toList)
    (artifact : Path) (arg : String) :
    expand (config.sourcePath name) artifact arg =
      simultaneously (config.sourcePath name) artifact arg := by
  have plain' : '/' ∉ (name ++ ".src").toList := by
    rw [String.toList_append, List.mem_append, not_or]
    exact ⟨plain, by decide⟩
  have mem {c : Char} (other : c ≠ '/') : c ∈ (config.sourcePath name).text.toList ↔
      c ∈ config.workDir.text.toList ∨ c ∈ name.toList ∨ c ∈ ".src".toList := by
    rw [Configuration.sourcePath, Path.mem_join plain' other, String.toList_append, List.mem_append]
  have without {c : Char} (other : c ≠ '/') (ending : c ∉ ".src".toList)
      (elsewhere : c ∉ config.workDir.text.toList ∧ c ∉ name.toList) :
      c ∉ (config.sourcePath name).text.toList := by
    rw [mem other, not_or, not_or]
    exact ⟨elsewhere.1, elsewhere.2, ending⟩
  refine expand_eq_simultaneously_iff.mpr (.inr (occurrences_replace_of_plain ?_ ?_ ?_ _))
  · exact without (by decide) (by decide) (noBrace '{' (by decide))
  · exact without (by decide) (by decide) (noBrace '}' (by decide))
  · exact (mem (by decide)).mpr (.inr (.inr (by decide)))

/-! ## The arguments of a command -/

/-- **The arguments of a command have both paths put in at once, each in place of the argument's own
placeholders, exactly if the path of the listing makes no new placeholder of the unit**, or the path
of the unit is that placeholder. -/
theorem expand_simultaneous_iff (source artifact : Path) (args : List String) :
    args.map (expand source artifact) = args.map (simultaneously source artifact) ↔
      artifact.text = "{artifact}" ∨ ∀ arg ∈ args,
        occurrences artifactMark (replace sourceMark source.text.toList arg.toList) =
          occurrences artifactMark arg.toList := by
  have each : (∀ arg ∈ args, expand source artifact arg = simultaneously source artifact arg) ↔
      ∀ arg ∈ args, artifact.text = "{artifact}" ∨
        occurrences artifactMark (replace sourceMark source.text.toList arg.toList) =
          occurrences artifactMark arg.toList :=
    forall₂_congr fun _ _ => expand_eq_simultaneously_iff
  rw [List.map_inj_left, each]
  by_cases itself : artifact.text = "{artifact}"
  · simp only [itself, true_or, implies_true]
  · simp only [itself, false_or]

example : ["build-unit", "{source}", "--out={artifact}"].map
    (expand ⟨"tmp/q.src"⟩ ⟨"tmp/.q.tmp"⟩) = ["build-unit", "tmp/q.src", "--out=tmp/.q.tmp"] := by
  decide +kernel

/-- A directory named like the placeholder of the unit: the path of a listing in it is not what the
command gets. -/
theorem listing_path_expanded_again :
    expand ⟨"{artifact}/q.src"⟩ ⟨"{artifact}/q.unit"⟩ "{source}" = "{artifact}/q.unit/q.src" ∧
      simultaneously ⟨"{artifact}/q.src"⟩ ⟨"{artifact}/q.unit"⟩ "{source}" = "{artifact}/q.src" := by
  decide +kernel

end TemporalDB.Compiler
