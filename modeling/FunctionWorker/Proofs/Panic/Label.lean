import FunctionWorker.Panic.Backtrace
import FunctionWorker.Proofs.Text.Cuts
import FunctionWorker.Proofs.Text.Numeral

/-!
# The label of a symbol

A symbol is a path of names, and behind the names may stand markers of closures and lists of type
arguments. The label is looked for among the segments of the symbol, and so are the insides of a
list of arguments once a path stands in it: a path is cut at its separators wherever it stands.

Results:
1. `pieces_text`: the segments of a symbol.
2. `shown_of_pathless`: behind the names nothing but a path in a list of arguments is looked at.
3. `label_eq`, `label_takes_last_name`: the label is the last name, unless a segment inside of an
   argument names something.
4. `label_takes_argument`: a path as an argument gives the label.
-/

namespace FunctionWorker.Panic

open Decimal (digitsOf)

/-! ## Definitions -/

/-- What stands between the segments of a symbol. -/
def separator : List Char := [':', ':']

/-- The signs that have a meaning of their own in a symbol. None is part of an identifier. -/
def punctuation : List Char := [':', '<', '>', '\x7b', '\x7d']

/-- A segment that is a name. -/
structure IsName (segment : List Char) : Prop where
  nonempty : segment ≠ []
  plain : ∀ c ∈ segment, c ∉ punctuation

-- It is decided by a walk over the segment, not over all characters there are.
instance (segment : List Char) : Decidable (IsName segment) :=
  decidable_of_iff (segment ≠ [] ∧
      segment.all (fun c => !punctuation.contains c) = true) <| by
    simp only [List.all_eq_true, Bool.not_eq_true', List.contains_eq_mem, decide_eq_false_iff_not]
    exact ⟨fun h => ⟨h.1, h.2⟩, fun h => ⟨h.nonempty, h.plain⟩⟩

/-- A path of at least one name. -/
structure NamePath where
  outer : List (List Char)
  last : List Char
  areNames : ∀ name ∈ outer, IsName name := by decide
  isName : IsName last := by decide

/-- What may stand behind the names of a symbol. -/
inductive Suffix where
  | closure
  | numberedClosure (number : Nat)
  /-- A list of type arguments, whatever it holds. -/
  | arguments (content : List Char)
  deriving DecidableEq, Repr

/-- The word inside of a marker of a closure. -/
def closureWord : List Char := "closure".toList

namespace Suffix

def text : Suffix → List Char
  | .closure => ['\x7b', '\x7b'] ++ closureWord ++ ['\x7d', '\x7d']
  | .numberedClosure number => '\x7b' :: (closureWord ++ '#' :: digitsOf number) ++ ['\x7d']
  | .arguments content => '<' :: content ++ ['>']

/-- Whether a path stands inside. -/
def HasPath : Suffix → Prop
  | .arguments content => separator <:+: content
  | _ => False

instance : ∀ s : Suffix, Decidable s.HasPath
  | .arguments content => inferInstanceAs (Decidable (separator <:+: content))
  | .closure => inferInstanceAs (Decidable False)
  | .numberedClosure _ => inferInstanceAs (Decidable False)

/-- The segments inside that are taken for names. -/
def shown (s : Suffix) : List (List Char) := (Text.pieces separator s.text).filter namesSomething

end Suffix

/-- The symbol with these names and with these suffixes behind them. -/
def NamePath.text (path : NamePath) (suffixes : List Suffix) : List Char :=
  separator.intercalate (path.outer ++ path.last :: suffixes.map Suffix.text)

/-! ## Names -/

namespace IsName

variable {name : List Char}

theorem ne_of_mem (h : IsName name) {c : Char} (hc : c ∈ name) :
    c ≠ ':' ∧ c ≠ '<' ∧ c ≠ '>' ∧ c ≠ '\x7b' ∧ c ≠ '\x7d' := by
  simpa [punctuation] using h.plain c hc

theorem namesSomething (h : IsName name) : Panic.namesSomething name = true := by
  obtain ⟨c, cs, rfl⟩ := List.exists_cons_of_ne_nil h.nonempty
  simp [Panic.namesSomething, h.ne_of_mem List.mem_cons_self]

theorem colon_notMem (h : IsName name) : ':' ∉ name :=
  fun hc => (h.ne_of_mem hc).1 rfl

/-- A name is one segment. -/
theorem pieces (h : IsName name) : Text.pieces separator name = [name] :=
  Text.pieces_of_notMem h.colon_notMem

/-- Nothing is cut off a name. -/
theorem dropEndWhile (h : IsName name) : Text.dropEndWhile (· = '>') name = name := by
  refine Text.dropEndWhile_eq_self fun c hc => ?_
  simp [h.ne_of_mem (List.mem_of_getLast? hc)]

end IsName

/-! ## Suffixes -/

namespace Suffix

theorem getLast?_text (s : Suffix) : s.text.getLast? ≠ some ':' := by
  cases s <;> simp [text, List.getLast?_cons, List.getLast?_append]

theorem namesSomething_text (s : Suffix) : namesSomething s.text = false := by
  cases s <;> simp [text, namesSomething]

theorem placeless_text {s : Suffix} (h : ¬ s.HasPath) : ¬ separator <:+: s.text := by
  have hcolon : ∀ cs : List Char, ':' ∉ cs → ¬ separator <:+: cs :=
    fun _ hcs => Text.not_infix_of_notMem hcs
  cases s with
  | closure => exact hcolon _ (by decide)
  | numberedClosure number =>
    have hword : ':' ∉ closureWord := by decide
    have hdigits : ':' ∉ digitsOf number := Text.notMem_digitsOf (by decide) number
    exact hcolon _ (by simp [text, hword, hdigits])
  | arguments content =>
    rw [text, List.cons_append, List.infix_cons_iff, List.infix_concat_iff]
    rintro (hbegins | hends | hinside)
    · exact absurd (List.cons_prefix_cons.1 hbegins).1 (by decide)
    · obtain ⟨front, hfront⟩ := hends
      have hlast := congrArg List.getLast? hfront
      rw [List.getLast?_concat, List.getLast?_append] at hlast
      exact absurd (Option.some.inj hlast) (by decide)
    · exact h hinside

/-- Only a path inside of a suffix is looked into. -/
theorem shown_of_pathless (s : Suffix) (h : ¬ s.HasPath) : s.shown = [] := by
  rw [shown, Text.pieces_of_placeless (placeless_text h),
    List.filter_cons_of_neg (by simp [s.namesSomething_text]), List.filter_nil]

end Suffix

/-! ## Labels -/

namespace NamePath

variable (path : NamePath) (suffixes : List Suffix)

/-- Names are whole segments. Of a suffix the segments are what a path inside of it leaves. -/
theorem pieces_text : Text.pieces separator (path.text suffixes) =
    path.outer ++ path.last :: suffixes.flatMap fun s => Text.pieces separator s.text := by
  have hname : ∀ {name}, IsName name → name.getLast? ≠ some ':' :=
    fun hname hlast => hname.colon_notMem (List.mem_of_getLast? hlast)
  have hends : ∀ segment ∈ path.outer ++ path.last :: suffixes.map Suffix.text,
      segment.getLast? ≠ some ':' := by
    intro segment hsegment
    rcases List.mem_append.1 hsegment with houter | hlast
    · exact hname (path.areNames segment houter)
    · rcases List.mem_cons.1 hlast with rfl | hsuffix
      · exact hname path.isName
      · obtain ⟨s, -, rfl⟩ := List.mem_map.1 hsuffix
        exact s.getLast?_text
  have houter : path.outer.flatMap (Text.pieces separator) = path.outer := by
    rw [List.flatMap_congr fun name hname => (path.areNames name hname).pieces]
    exact List.flatMap_singleton' _
  have hjoined := Text.pieces_intercalate (List.append_ne_nil_of_right_ne_nil _
    (List.cons_ne_nil _ _)) hends
  rw [text, separator, hjoined, List.flatMap_append, List.flatMap_cons, List.flatMap_map]
  exact congrArg₂ _ houter (congrArg (· ++ _) path.isName.pieces)

/-- The segments that name something: the names, and what is shown of the suffixes. -/
theorem filter_pieces : (Text.pieces separator (path.text suffixes)).filter namesSomething =
    path.outer ++ path.last :: suffixes.flatMap Suffix.shown := by
  have houter : path.outer.filter namesSomething = path.outer :=
    List.filter_eq_self.2 fun name hname => (path.areNames name hname).namesSomething
  rw [pieces_text, List.filter_append, houter, List.filter_cons_of_pos path.isName.namesSomething,
    List.filter_flatMap]
  rfl

/-- The label is the last name, unless a suffix shows a later one. -/
theorem label_eq : label (path.text suffixes) =
    Text.dropEndWhile (· = '>') ((suffixes.flatMap Suffix.shown).getLast?.getD path.last) := by
  have hfilter := path.filter_pieces suffixes
  rw [separator] at hfilter
  rw [label, hfilter, List.getLast?_append, List.getLast?_cons]
  rfl

end NamePath

theorem flatMap_shown {suffixes : List Suffix} (h : ∀ s ∈ suffixes, s.HasPath → s.shown = []) :
    suffixes.flatMap Suffix.shown = [] := by
  refine List.flatMap_eq_nil_iff.2 fun s hs => ?_
  by_cases hpath : s.HasPath
  · exact h s hs hpath
  · exact s.shown_of_pathless hpath

/-- The label of a symbol is its last name, whatever markers of closures and lists of arguments
stand behind it, and more of them do not change a label, as long as no segment of a path inside of a
list is taken for a name. If one is, the label is the last of those, without the signs that end the
lists. -/
theorem label_takes_last_name (path : NamePath) (suffixes : List Suffix) :
    ((∀ s ∈ suffixes, s.HasPath → s.shown = []) → label (path.text suffixes) = path.last) ∧
    (∀ more : List Suffix, (∀ s ∈ more, s.HasPath → s.shown = []) →
      label (path.text (suffixes ++ more)) = label (path.text suffixes)) ∧
    label (path.text suffixes) =
      Text.dropEndWhile (· = '>') ((suffixes.flatMap Suffix.shown).getLast?.getD path.last) := by
  refine ⟨fun h => ?_, fun more h => ?_, path.label_eq suffixes⟩
  · rw [path.label_eq, flatMap_shown h, List.getLast?_nil, Option.getD_none]
    exact path.isName.dropEndWhile
  · rw [path.label_eq, path.label_eq, List.flatMap_append, flatMap_shown h, List.append_nil]

def loadOrder : NamePath where
  outer := ["orders".toList, "store".toList]
  last := "load".toList

/-- Lists inside of a list, with a separator between two of them. -/
def nestedArguments : Suffix := .arguments "<u8>::<u16>".toList

theorem label_takes_last_name_nested :
    loadOrder.text [nestedArguments, .closure] ++ separator ++ (Suffix.numberedClosure 12).text =
        "orders::store::load::<<u8>::<u16>>::\x7b\x7bclosure\x7d\x7d::\x7bclosure#12\x7d".toList ∧
      nestedArguments.HasPath ∧ nestedArguments.shown = [] ∧
      label (loadOrder.text [nestedArguments, .closure]) = "load".toList ∧
      label (loadOrder.text ([nestedArguments, .closure] ++ [.numberedClosure 12])) =
        label (loadOrder.text [nestedArguments, .closure]) := by
  have hshown : nestedArguments.shown = [] := by decide +kernel
  obtain ⟨hlast, hmore, -⟩ := label_takes_last_name loadOrder [nestedArguments, .closure]
  refine ⟨by decide +kernel, by decide +kernel, hshown, hlast ?_, hmore _ ?_⟩
  · intro s hs hpath
    rcases List.mem_cons.1 hs with rfl | hs
    · exact hshown
    · cases List.mem_singleton.1 hs
      exact absurd hpath id
  · intro s hs hpath
    cases List.mem_singleton.1 hs
    exact absurd hpath id

/-- A path as an argument gives the label, and the last name does not. -/
theorem label_takes_argument :
    loadOrder.text [.arguments "alloc::string::String".toList] =
        "orders::store::load::<alloc::string::String>".toList ∧
      label (loadOrder.text [.arguments "alloc::string::String".toList]) = "String".toList ∧
      label (loadOrder.text [.arguments "alloc::string::String".toList]) ≠ loadOrder.last := by
  decide +kernel

end FunctionWorker.Panic
