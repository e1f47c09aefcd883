import ClassLang.Files.Path
import Mathlib.Data.String.Basic

/-!
Names in paths.

The path of a name in a directory ends with this name, and its extension is that of the name. The
extension of such a path can be replaced, unless what stands before it is only a dot: the name
without its extension is then `..`, which is no name.
-/

namespace ClassLang.Path

/-! Parts. -/

theorem splitSlash_eq (chars : List Char) : splitSlash chars = chars.splitOn '/' := by
  induction chars with
  | nil => rfl
  | cons c rest inductionHypothesis =>
      rw [splitSlash, inductionHypothesis, List.splitOn_cons_eq_if_modifyHead]
      by_cases slash : c = '/'
      · simp [slash]
      · cases split : rest.splitOn '/' with
        | nil => exact absurd split (List.splitOn_ne_nil _ _)
        | cons part parts => simp [slash]

/-- The parts with slashes between them are the path. -/
theorem intercalate_parts (path : String) : "/".intercalate (parts path) = path := by
  have kept : String.toList ∘ String.ofList = id := funext fun _ => String.toList_ofList
  rw [← String.toList_inj, String.toList_intercalate, parts, List.map_map, splitSlash_eq, kept,
    List.map_id]
  exact List.intercalate_splitOn _

theorem parts_append_slash (directory : String) {name : String} (noSlash : '/' ∉ name.toList) :
    parts (directory ++ "/" ++ name) = parts directory ++ [name] := by
  have text : (directory ++ "/" ++ name).toList = directory.toList ++ '/' :: name.toList := by
    simp
  rw [parts, parts, splitSlash_eq, splitSlash_eq, text, List.splitOn_append_cons_self,
    List.splitOn_eq_singleton noSlash, List.map_append, List.map_singleton, String.ofList_toList]

/-! Names in directories. -/

/-- A name that an entry of a directory can have. -/
structure IsEntryName (name : String) : Prop where
  noSlash : '/' ∉ name.toList
  counts : isStay name = false
  down : name ≠ ".."

theorem join_append (directory first second : String) :
    join directory (first ++ second) = join directory first ++ second := by
  unfold join
  split <;> simp only [String.append_assoc]

theorem join_inj {directory first second : String}
    (same : join directory first = join directory second) : first = second := by
  unfold join at same
  split at same <;> simpa using same

theorem join_lt_join (directory : String) {first second : String} (before : first < second) :
    join directory first < join directory second := by
  rw [String.lt_iff_toList_lt] at before ⊢
  unfold join
  split <;> simp only [String.toList_append] <;> exact List.append_left_lt before

/-- The paths in a directory differ only in their last part. -/
theorem exists_parts_join (directory : String) : ∃ before, ∀ name,
    '/' ∉ name.toList → parts (join directory name) = before ++ [name] := by
  by_cases bare : directory = ""
  · refine ⟨[], fun name noSlash => ?_⟩
    rw [join, if_pos (.inl bare), bare, String.empty_append, parts, splitSlash_eq,
      List.splitOn_eq_singleton noSlash, List.map_singleton, String.ofList_toList,
      List.nil_append]
  · by_cases ending : directory.toList.getLast? = some '/'
    · obtain ⟨front, text⟩ := List.getLast?_eq_some_iff.mp ending
      have split : directory = String.ofList front ++ "/" := by
        simp [← String.toList_inj, text]
      refine ⟨parts (String.ofList front), fun name noSlash => ?_⟩
      rw [join, if_pos (.inr ending), split, parts_append_slash _ noSlash]
    · refine ⟨parts directory, fun name noSlash => ?_⟩
      rw [join, if_neg (not_or_intro bare ending), parts_append_slash _ noSlash]

/-- A path in a directory splits into its name and parts that make it up with any other name. -/
theorem exists_splitName?_join (directory : String) : ∃ before,
    (∀ name, IsEntryName name → splitName? (join directory name) = some (before, name)) ∧
    ∀ name, '/' ∉ name.toList → "/".intercalate (before ++ [name]) = join directory name := by
  obtain ⟨before, divided⟩ := exists_parts_join directory
  refine ⟨before, fun name named => ?_, fun name noSlash => ?_⟩
  · simp [splitName?, divided name named.noSlash, named.counts, named.down]
  · rw [← divided name noSlash, intercalate_parts]

theorem fileName?_join (directory : String) {name : String} (named : IsEntryName name) :
    fileName? (join directory name) = some name := by
  obtain ⟨before, split, -⟩ := exists_splitName?_join directory
  rw [fileName?, split name named, Option.map_some]

/-- A path that ends by going up has no name. -/
theorem splitName?_join_up (directory : String) : splitName? (join directory "..") = none := by
  obtain ⟨before, divided⟩ := exists_parts_join directory
  simp [splitName?, divided ".." (by decide), isStay]

/-! Extensions. -/

theorem splitExtension_append {stem extension : String} (filled : stem ≠ "")
    (noDot : '.' ∉ extension.toList) :
    splitExtension (stem ++ "." ++ extension) = (stem, some extension) := by
  have plain : ∀ c ∈ extension.toList.reverse, decide (c ≠ '.') = true := by
    intro c membership
    rw [List.mem_reverse] at membership
    exact decide_eq_true fun dot => noDot (dot ▸ membership)
  have reversed : (stem ++ "." ++ extension).toList.reverse =
      extension.toList.reverse ++ '.' :: stem.toList.reverse := by
    simp
  have dropped : ('.' :: stem.toList.reverse).dropWhile (· ≠ '.') = '.' :: stem.toList.reverse :=
    List.dropWhile_cons_of_neg (by decide)
  have taken : ('.' :: stem.toList.reverse).takeWhile (· ≠ '.') = [] :=
    List.takeWhile_cons_of_neg (by decide)
  simp only [splitExtension, reversed, List.dropWhile_append_of_pos plain,
    List.takeWhile_append_of_pos plain, dropped, taken]
  cases ending : stem.toList.reverse with
  | nil => exact absurd (by simpa using ending) filled
  | cons c rest => simp [← ending]

/-- An extension follows a dot, and something stands before that dot. -/
theorem eq_of_splitExtension {name extension : String}
    (split : (splitExtension name).2 = some extension) :
    ∃ stem, stem ≠ "" ∧ name = stem ++ "." ++ extension := by
  have whole := List.takeWhile_append_dropWhile (p := (· ≠ '.')) (l := name.toList.reverse)
  have stopped := List.head?_dropWhile_not (· ≠ '.') name.toList.reverse
  simp only [splitExtension] at split
  match dropped : name.toList.reverse.dropWhile (· ≠ '.') with
  | [] =>
      rw [dropped] at split
      cases split
  | [c] =>
      rw [dropped] at split
      cases split
  | dot :: c :: rest =>
      rw [dropped] at split whole stopped
      have isDot : dot = '.' := by simpa using stopped
      obtain rfl := Option.some.inj split
      refine ⟨String.ofList (c :: rest).reverse, by simp [← String.toList_inj], ?_⟩
      rw [← String.toList_inj, ← List.reverse_inj]
      refine whole.symm.trans ?_
      simp [isDot]

/-- A name with an extension stays a name under another one. -/
theorem IsEntryName.replace {stem old new : String} (named : IsEntryName (stem ++ "." ++ old))
    (filled : stem ≠ "") (more : stem ≠ ".") (noSlash : '/' ∉ new.toList) :
    IsEntryName (stem ++ "." ++ new) := by
  have before := named.noSlash
  simp only [String.toList_append, List.mem_append, not_or] at before
  obtain ⟨c, rest, text⟩ := List.exists_cons_of_ne_nil (mt String.toList_eq_nil_iff.mp filled)
  have whole : (stem ++ "." ++ new).toList = c :: (rest ++ '.' :: new.toList) := by simp [text]
  refine ⟨?_, ?_, fun up => more ?_⟩
  · simp only [String.toList_append, List.mem_append, not_or]
    exact ⟨before.1, noSlash⟩
  · simp only [isStay, Bool.or_eq_false_iff, decide_eq_false_iff_not]
    constructor <;> intro same <;> simp [same] at whole
  · rw [up] at whole
    obtain ⟨dot, short⟩ := List.cons.inj whole
    obtain ⟨none, -⟩ | ⟨-, none⟩ := List.append_eq_singleton_iff.mp short.symm
    · rw [← String.toList_inj, text, ← dot, none]
      rfl
    · cases none

theorem withExtension_join (directory : String) {stem old new : String}
    (named : IsEntryName (stem ++ "." ++ old)) (filled : stem ≠ "")
    (noDot : '.' ∉ old.toList) (noSlash : '/' ∉ new.toList) :
    withExtension (join directory (stem ++ "." ++ old)) new =
      if stem = "." then join directory ".." else join directory (stem ++ "." ++ new) := by
  have found : extension? (join directory (stem ++ "." ++ old)) = some old := by
    rw [extension?, fileName?_join directory named, Option.bind_some,
      splitExtension_append filled noDot]
  have kept : String.ofList ((join directory (stem ++ "." ++ old)).toList.take
      ((join directory (stem ++ "." ++ old)).length - old.length)) =
        join directory (stem ++ ".") := by
    rw [join_append, ← String.toList_inj, String.toList_ofList, String.toList_append]
    exact List.take_left' (by simp [String.length_toList])
  rw [withExtension, found]
  dsimp only
  rw [kept, setExtension]
  by_cases dot : stem = "."
  · subst dot
    rw [if_pos rfl]
    have up : splitName? (join directory ("." ++ ".")) = none := splitName?_join_up directory
    rw [up]
    rfl
  · rw [if_neg dot]
    obtain ⟨before, split, remade⟩ := exists_splitName?_join directory
    have bare : IsEntryName (stem ++ "." ++ "") := named.replace filled dot (by decide)
    have cut : splitExtension (stem ++ "." ++ "") = (stem, some "") :=
      splitExtension_append filled (by decide)
    rw [String.append_empty] at bare cut
    rw [split _ bare]
    dsimp only
    rw [cut, remade _ (named.replace filled dot noSlash).noSlash]

end ClassLang.Path
