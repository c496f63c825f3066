import FunctionWorker.Proofs.Text.Alphanumeric
import FunctionWorker.Proofs.Text.Cuts
import FunctionWorker.TypeName

/-!
# Short names of types

A full name is made of paths and of signs between them. The short name keeps the signs where they
stand and the last segment of each path. No segment holds a separator and no separator reaches over
a sign, so nothing is left to shorten. A sign divides a name into two that are shortened apart, and
this is why the arguments, elements and traits of a type are shortened wherever they stand.

Results:
1. `lastSegment_eq_iff`: the last segment of a path.
2. `shortenFrom_eq_iff`: the short name, said without the path that is being read.
3. `Shortens.placeless`, `shortenFrom_eq_self`: short names are those without separators.
4. `shortenFrom_append`, `shortenFrom_text`: names that are put together.
5. `shorten_drops_prefixes`: all of this about `shorten`.
-/

namespace FunctionWorker.TypeName

/-! ## Definitions -/

/-- A part of a name in which no sign stands. It may be empty. -/
def IsPath (path : List Char) : Prop := ∀ c ∈ path, isPathChar c = true

/-- A part of a name that is made of signs, of one at least. -/
structure AreSigns (signs : List Char) : Prop where
  nonempty : signs ≠ []
  signs : ∀ c ∈ signs, isPathChar c = false

/-- The last segment of a path. That the separator is the last one is said with its second sign,
since another one could begin there. -/
inductive LastSegment : List Char → List Char → Prop
  | whole {path : List Char} : ¬ separator <:+: path → LastSegment path path
  | behind {outer segment : List Char} : ¬ separator <:+: ':' :: segment →
      LastSegment (outer ++ separator ++ segment) segment

/-- A name and its short name: the same signs, and between them the paths and their last segments.
A path ends at a sign or with the name, so none could be longer. -/
inductive Shortens : List Char → List Char → Prop
  | path {path segment : List Char} : IsPath path → LastSegment path segment →
      Shortens path segment
  | sign {path segment name short : List Char} {c : Char} : IsPath path →
      LastSegment path segment → isPathChar c = false → Shortens name short →
      Shortens (path ++ c :: name) (segment ++ c :: short)

/-- The name of a crate, a module, a type or a trait: one segment of a path. -/
structure Identifier where
  text : List Char
  plain : ∀ c ∈ text, isPathChar c = true ∧ c ≠ ':'

/-- A type as its full name shows it. A trait is a name too, and a type without a path, such as a
number, is a name of one segment. -/
inductive Tree where
  | named (outer : List Identifier) (name : Identifier) (arguments : List Tree)
  | reference (isMut : Bool) (target : Tree)
  | tuple (elements : List Tree)
  | object (traits : List Tree)

/-- A name with the modules that it is found in. -/
def qualifiedName (outer : List Identifier) (name : Identifier) : List Char :=
  outer.flatMap (fun i => i.text ++ separator) ++ name.text

/-- What stands between two arguments or elements. -/
def comma : List Char := [',', ' ']

/-- What stands between two traits. -/
def plus : List Char := [' ', '+', ' ']

/-- A list of arguments. An empty one is not shown. -/
def argumentList : List (List Char) → List Char
  | [] => []
  | arguments => ['<'] ++ comma.intercalate arguments ++ ['>']

def referenceText (isMut : Bool) (target : List Char) : List Char :=
  if isMut then "&mut".toList ++ ([' '] ++ target) else ['&'] ++ target

/-- The end of a tuple. A single element is told apart from a type in brackets. -/
def tupleEnd : List (List Char) → List Char
  | [_] => [',', ')']
  | _ => [')']

def tupleText (elements : List (List Char)) : List Char :=
  ['('] ++ comma.intercalate elements ++ tupleEnd elements

def objectText (traits : List (List Char)) : List Char :=
  "dyn".toList ++ ([' '] ++ plus.intercalate traits)

mutual

def Tree.text : Tree → List Char
  | .named outer name arguments => qualifiedName outer name ++ argumentList (textsOf arguments)
  | .reference isMut target => referenceText isMut target.text
  | .tuple elements => tupleText (textsOf elements)
  | .object traits => objectText (textsOf traits)

def textsOf : List Tree → List (List Char)
  | [] => []
  | t :: rest => t.text :: textsOf rest

end

mutual

/-- The type with no module in front of any name. -/
def Tree.short : Tree → Tree
  | .named _ name arguments => .named [] name (shortsOf arguments)
  | .reference isMut target => .reference isMut target.short
  | .tuple elements => .tuple (shortsOf elements)
  | .object traits => .object (shortsOf traits)

def shortsOf : List Tree → List Tree
  | [] => []
  | t :: rest => t.short :: shortsOf rest

end

def Tree.name (t : Tree) : String := String.ofList t.text

/-! ## Signs -/

/-- A sign for which nothing has to be looked up. -/
def isAsciiSign (c : Char) : Bool :=
  c.toNat < 0x80 && !(c.isAlphanum || c = '_' || c = ':')

theorem isPathChar_of_ascii {c : Char} (h : c.toNat < 0x80) :
    isPathChar c = (c.isAlphanum || c = '_' || c = ':') := by
  rw [isPathChar, Text.isAlphanumeric_of_ascii h]

theorem isPathChar_colon : isPathChar ':' = true :=
  isPathChar_of_ascii (by decide)

theorem mem_separator {c : Char} : c ∈ separator ↔ c = ':' := by
  simp only [separator, List.mem_cons, List.not_mem_nil, or_false, or_self]

theorem isPath_separator : IsPath separator := by
  intro c hc
  rw [mem_separator.1 hc, isPathChar_colon]

theorem notMem_separator {c : Char} (h : isPathChar c = false) : c ∉ separator := by
  intro hc
  rw [isPath_separator c hc] at h
  cases h

theorem areSigns_of_ascii {signs : List Char} (hne : signs ≠ [])
    (h : signs.all isAsciiSign = true) : AreSigns signs := by
  refine ⟨hne, fun c hc => ?_⟩
  have hsign := List.all_eq_true.1 h c hc
  simp only [isAsciiSign, Bool.and_eq_true, Bool.not_eq_true', decide_eq_true_eq] at hsign
  rw [isPathChar_of_ascii hsign.1, hsign.2]

/-! ## Segments -/

theorem separator_ne_nil : separator ≠ [] := List.cons_ne_nil _ _

theorem lastSegment_of_placeless {path : List Char} (h : ¬ separator <:+: path) :
    lastSegment path = path := by
  rw [lastSegment, Text.cutLast?_eq_none_iff.2 h]

theorem lastSegment_behind {outer segment : List Char} (h : ¬ separator <:+: ':' :: segment) :
    lastSegment (outer ++ separator ++ segment) = segment := by
  rw [lastSegment, (Text.cutLast?_eq_some_iff separator_ne_nil).2 ⟨rfl, h⟩]

theorem lastSegment_spec (path : List Char) : LastSegment path (lastSegment path) := by
  cases hcut : Text.cutLast? separator path with
  | none =>
    have hplain := Text.cutLast?_eq_none_iff.1 hcut
    rw [lastSegment_of_placeless hplain]
    exact .whole hplain
  | some parts =>
    obtain ⟨outer, segment⟩ := parts
    obtain ⟨rfl, hlast⟩ := (Text.cutLast?_eq_some_iff separator_ne_nil).1 hcut
    have hlast : ¬ separator <:+: ':' :: segment := hlast
    rw [lastSegment_behind hlast]
    exact .behind hlast

theorem lastSegment_eq_iff {path segment : List Char} :
    lastSegment path = segment ↔ LastSegment path segment := by
  constructor
  · rintro rfl
    exact lastSegment_spec path
  · rintro (hplain | hlast)
    · exact lastSegment_of_placeless hplain
    · exact lastSegment_behind hlast

theorem LastSegment.placeless {path segment : List Char} (h : LastSegment path segment) :
    ¬ separator <:+: segment := by
  cases h with
  | whole hplain => exact hplain
  | behind hlast => exact mt List.infix_cons hlast

/-! ## Names -/

/-- A part of a name without signs is read as a part of the path. -/
theorem shortenFrom_path {more : List Char} (h : IsPath more) (path name : List Char) :
    shortenFrom path (more ++ name) = shortenFrom (path ++ more) name := by
  induction more generalizing path with
  | nil => rw [List.nil_append, List.append_nil]
  | cons c more ih =>
    have hmore : IsPath more := fun d hd => h d (List.mem_cons_of_mem c hd)
    rw [List.cons_append, shortenFrom, if_pos (h c List.mem_cons_self), ih hmore,
      List.append_assoc, List.singleton_append]

theorem shortenFrom_of_isPath {path : List Char} (h : IsPath path) :
    shortenFrom [] path = lastSegment path := by
  have hread := shortenFrom_path h [] []
  rwa [List.append_nil] at hread

/-- A sign ends a path. What stands in front of it and what stands behind it are shortened apart. -/
theorem shortenFrom_append {c : Char} (hc : isPathChar c = false) (path front back : List Char) :
    shortenFrom path (front ++ c :: back) = shortenFrom path front ++ c :: shortenFrom [] back := by
  induction front generalizing path with
  | nil => simp only [List.nil_append, shortenFrom, hc, Bool.false_eq_true, if_false]
  | cons d front ih =>
    rw [List.cons_append, shortenFrom, shortenFrom]
    split
    · exact ih _
    · rw [ih, List.append_assoc, List.cons_append]

/-- The path that is being read is completed by what is left of the name. -/
theorem shortens_shortenFrom {path : List Char} (h : IsPath path) (name : List Char) :
    Shortens (path ++ name) (shortenFrom path name) := by
  fun_induction shortenFrom path name with
  | case1 path =>
    rw [List.append_nil]
    exact .path h (lastSegment_spec path)
  | case2 path c name hc ih =>
    have hlonger : IsPath (path ++ [c]) := by
      intro d hd
      rcases List.mem_append.1 hd with hd | hd
      · exact h d hd
      · rwa [List.mem_singleton.1 hd]
    rw [List.append_cons]
    exact ih hlonger
  | case3 path c name hc ih =>
    exact .sign h (lastSegment_spec path) (Bool.eq_false_iff.2 hc) (ih (List.forall_mem_nil _))

theorem Shortens.shortenFrom_eq {name short : List Char} (h : Shortens name short) :
    shortenFrom [] name = short := by
  induction h with
  | path hpath hlast => rw [shortenFrom_of_isPath hpath, lastSegment_eq_iff.2 hlast]
  | sign hpath hlast hc _ ih =>
    rw [shortenFrom_append hc, shortenFrom_of_isPath hpath, lastSegment_eq_iff.2 hlast, ih]

theorem shortenFrom_eq_iff {name short : List Char} :
    shortenFrom [] name = short ↔ Shortens name short := by
  constructor
  · rintro rfl
    exact shortens_shortenFrom (List.forall_mem_nil _) name
  · exact Shortens.shortenFrom_eq

/-! ## Names without separators -/

theorem Shortens.placeless {name short : List Char} (h : Shortens name short) :
    ¬ separator <:+: short := by
  induction h with
  | path _ hlast => exact hlast.placeless
  | sign _ hlast hc _ ih =>
    rw [Text.infix_append_cons_iff (notMem_separator hc), not_or]
    exact ⟨hlast.placeless, ih⟩

theorem shortenFrom_of_placeless {path name : List Char} (h : ¬ separator <:+: path ++ name) :
    shortenFrom path name = path ++ name := by
  fun_induction shortenFrom path name with
  | case1 path =>
    rw [List.append_nil] at h ⊢
    exact lastSegment_of_placeless h
  | case2 path c name hc ih =>
    rw [List.append_cons] at h
    rw [ih h, ← List.append_cons]
  | case3 path c name hc ih =>
    have hc : isPathChar c = false := Bool.eq_false_iff.2 hc
    rw [Text.infix_append_cons_iff (notMem_separator hc), not_or] at h
    rw [lastSegment_of_placeless h.1, ih h.2, List.nil_append]

/-- A name without separators is short. -/
theorem shortenFrom_eq_self {name : List Char} (h : ¬ separator <:+: name) :
    shortenFrom [] name = name :=
  shortenFrom_of_placeless h

/-! ## Names put together -/

theorem shortenFrom_nil : shortenFrom [] [] = [] := rfl

theorem shortenFrom_signs {signs : List Char} (h : ∀ c ∈ signs, isPathChar c = false)
    (name : List Char) : shortenFrom [] (signs ++ name) = signs ++ shortenFrom [] name := by
  induction signs with
  | nil => rfl
  | cons c signs ih =>
    obtain ⟨hc, hsigns⟩ := List.forall_mem_cons.1 h
    have hhead := shortenFrom_append hc [] [] (signs ++ name)
    rw [List.nil_append, ih hsigns] at hhead
    exact hhead

namespace AreSigns

variable {signs opening closing : List Char}

theorem shortenFrom_between (h : AreSigns signs) (front back : List Char) :
    shortenFrom [] (front ++ (signs ++ back)) =
      shortenFrom [] front ++ (signs ++ shortenFrom [] back) := by
  obtain ⟨c, signs, rfl⟩ := List.exists_cons_of_ne_nil h.nonempty
  obtain ⟨hc, hsigns⟩ := List.forall_mem_cons.1 h.signs
  rw [List.cons_append, shortenFrom_append hc, shortenFrom_signs hsigns, List.cons_append]

/-- A word is a path that is short already. -/
theorem shortenFrom_word (h : AreSigns signs) {word : List Char} (hword : ¬ separator <:+: word)
    (name : List Char) :
    shortenFrom [] (word ++ (signs ++ name)) = word ++ (signs ++ shortenFrom [] name) := by
  rw [h.shortenFrom_between, shortenFrom_eq_self hword]

theorem shortenFrom_enclosed (hopen : AreSigns opening) (hclose : AreSigns closing)
    (front name : List Char) : shortenFrom [] (front ++ (opening ++ name ++ closing)) =
      shortenFrom [] front ++ (opening ++ shortenFrom [] name ++ closing) := by
  have hlast := hclose.shortenFrom_between name []
  rw [List.append_nil, shortenFrom_nil, List.append_nil] at hlast
  rw [List.append_assoc, hopen.shortenFrom_between, hlast, List.append_assoc]

theorem shortenFrom_intercalate (h : AreSigns signs) (names : List (List Char)) :
    shortenFrom [] (signs.intercalate names) =
      signs.intercalate (names.map (shortenFrom [])) := by
  induction names with
  | nil => rfl
  | cons name names ih =>
    cases names with
    | nil => simp only [List.intercalate_singleton, List.map_cons, List.map_nil]
    | cons next names =>
      rw [List.map_cons] at ih
      rw [List.map_cons, List.map_cons, List.intercalate_cons_cons, List.intercalate_cons_cons,
        List.append_assoc, h.shortenFrom_between, ih, List.append_assoc]

end AreSigns

/-! ## Types -/

theorem placeless_identifier (i : Identifier) : ¬ separator <:+: ':' :: i.text := by
  have hcolon : ':' ∉ i.text := fun hc => (i.plain ':' hc).2 rfl
  rw [List.infix_cons_iff, not_or]
  refine ⟨fun hbegins => ?_, Text.not_infix_of_notMem hcolon⟩
  exact hcolon ((List.cons_prefix_cons.1 hbegins).2.subset List.mem_cons_self)

theorem isPath_qualifiedName (outer : List Identifier) (name : Identifier) :
    IsPath (qualifiedName outer name) := by
  have hidentifier : ∀ i : Identifier, IsPath i.text := fun i c hc => (i.plain c hc).1
  intro c hc
  rcases List.mem_append.1 hc with houter | hname
  · obtain ⟨i, -, hi⟩ := List.mem_flatMap.1 houter
    rcases List.mem_append.1 hi with hi | hseparator
    · exact hidentifier i c hi
    · exact isPath_separator c hseparator
  · exact hidentifier name c hname

theorem lastSegment_qualifiedName (outer : List Identifier) (name : Identifier) :
    LastSegment (qualifiedName outer name) name.text := by
  rcases List.eq_nil_or_concat outer with rfl | ⟨outer, i, rfl⟩
  · exact .whole (mt List.infix_cons (placeless_identifier name))
  · rw [qualifiedName, List.concat_eq_append, List.flatMap_append, List.flatMap_singleton,
      ← List.append_assoc]
    exact .behind (placeless_identifier name)

theorem shortenFrom_qualifiedName (outer : List Identifier) (name : Identifier) :
    shortenFrom [] (qualifiedName outer name) = qualifiedName [] name := by
  rw [shortenFrom_of_isPath (isPath_qualifiedName outer name)]
  exact lastSegment_eq_iff.2 (lastSegment_qualifiedName outer name)

theorem areSigns_comma : AreSigns comma :=
  areSigns_of_ascii (by decide) rfl

theorem shortenFrom_argumentList (path : List Char) (arguments : List (List Char)) :
    shortenFrom [] (path ++ argumentList arguments) =
      shortenFrom [] path ++ argumentList (arguments.map (shortenFrom [])) := by
  have hopen : AreSigns ['<'] := areSigns_of_ascii (by decide) rfl
  have hclose : AreSigns ['>'] := areSigns_of_ascii (by decide) rfl
  cases arguments with
  | nil => rw [List.map_nil, argumentList, List.append_nil, List.append_nil]
  | cons argument arguments =>
    have henclosed := hopen.shortenFrom_enclosed hclose path
      (comma.intercalate (argument :: arguments))
    rw [areSigns_comma.shortenFrom_intercalate] at henclosed
    exact henclosed

theorem shortenFrom_referenceText (isMut : Bool) (target : List Char) :
    shortenFrom [] (referenceText isMut target) = referenceText isMut (shortenFrom [] target) := by
  have hblank : AreSigns [' '] := areSigns_of_ascii (by decide) rfl
  have hampersand : AreSigns ['&'] := areSigns_of_ascii (by decide) rfl
  unfold referenceText
  split
  · rw [hblank.shortenFrom_word (by decide)]
  · rw [shortenFrom_signs hampersand.signs]

theorem areSigns_tupleEnd (elements : List (List Char)) : AreSigns (tupleEnd elements) := by
  unfold tupleEnd
  split
  · exact areSigns_of_ascii (by decide) rfl
  · exact areSigns_of_ascii (by decide) rfl

theorem tupleEnd_map (f : List Char → List Char) (elements : List (List Char)) :
    tupleEnd (elements.map f) = tupleEnd elements := by
  rcases elements with _ | ⟨_, _ | ⟨_, _⟩⟩ <;> rfl

theorem shortenFrom_tupleText (elements : List (List Char)) :
    shortenFrom [] (tupleText elements) = tupleText (elements.map (shortenFrom [])) := by
  have hopen : AreSigns ['('] := areSigns_of_ascii (by decide) rfl
  have henclosed := hopen.shortenFrom_enclosed (areSigns_tupleEnd elements) []
    (comma.intercalate elements)
  rw [areSigns_comma.shortenFrom_intercalate, shortenFrom_nil, List.nil_append,
    List.nil_append] at henclosed
  rw [tupleText, henclosed, tupleText, tupleEnd_map]

theorem shortenFrom_objectText (traits : List (List Char)) :
    shortenFrom [] (objectText traits) = objectText (traits.map (shortenFrom [])) := by
  have hblank : AreSigns [' '] := areSigns_of_ascii (by decide) rfl
  have hplus : AreSigns plus := areSigns_of_ascii (by decide) rfl
  rw [objectText, hblank.shortenFrom_word (by decide), hplus.shortenFrom_intercalate, objectText]

mutual

/-- The short name of a type is the name of the type without modules. -/
theorem shortenFrom_text : ∀ t : Tree, shortenFrom [] t.text = t.short.text
  | .named outer name arguments => by
    rw [Tree.text, shortenFrom_argumentList, shortenFrom_qualifiedName, map_textsOf, Tree.short,
      Tree.text]
  | .reference isMut target => by
    rw [Tree.text, shortenFrom_referenceText, shortenFrom_text target, Tree.short, Tree.text]
  | .tuple elements => by
    rw [Tree.text, shortenFrom_tupleText, map_textsOf, Tree.short, Tree.text]
  | .object traits => by
    rw [Tree.text, shortenFrom_objectText, map_textsOf, Tree.short, Tree.text]

theorem map_textsOf : ∀ ts : List Tree, (textsOf ts).map (shortenFrom []) = textsOf (shortsOf ts)
  | [] => rfl
  | t :: rest => by
    rw [textsOf, List.map_cons, shortenFrom_text t, map_textsOf rest, shortsOf, textsOf]

end

/-! ## Names as strings -/

theorem toList_shorten (name : String) : (shorten name).toList = shortenFrom [] name.toList :=
  String.toList_ofList

/-- A short name has the signs of the full name where they stood, and for each path between them
its last segment. It holds no separator, so to shorten it again changes nothing. What stands in
front of a sign and what stands behind it are shortened apart; so the short name of a type is its
name with no module in front of any name inside of it, however its arguments, references, tuples and
traits are nested. -/
theorem shorten_drops_prefixes (name : String) :
    (∀ short : String, shorten name = short ↔ Shortens name.toList short.toList) ∧
    ¬ separator <:+: (shorten name).toList ∧
    shorten (shorten name) = shorten name ∧
    (∀ (front back : String) (c : Char), isPathChar c = false →
      name = front ++ String.singleton c ++ back →
      shorten name = shorten front ++ String.singleton c ++ shorten back) ∧
    ∀ t : Tree, name = t.name → shorten name = t.short.name := by
  have hplaceless : ¬ separator <:+: (shorten name).toList :=
    (shortenFrom_eq_iff.1 (toList_shorten name).symm).placeless
  refine ⟨fun short => ?_, hplaceless, ?_, ?_, ?_⟩
  · rw [← shortenFrom_eq_iff, ← toList_shorten, String.toList_inj]
  · rw [← String.toList_inj, toList_shorten, shortenFrom_eq_self hplaceless]
  · rintro front back c hc rfl
    rw [← String.toList_inj]
    simp only [toList_shorten, String.toList_append, String.toList_singleton, List.append_assoc,
      List.singleton_append, shortenFrom_append hc]
  · rintro t rfl
    rw [← String.toList_inj, toList_shorten, Tree.name, Tree.name, String.toList_ofList,
      String.toList_ofList]
    exact shortenFrom_text t

def isAsciiWordChar (c : Char) : Bool := c.toNat < 0x80 && (c.isAlphanum || c = '_')

def Identifier.ofAscii (text : String)
    (h : text.toList.all isAsciiWordChar = true := by decide) : Identifier where
  text := text.toList
  plain := by
    intro c hc
    have hword := List.all_eq_true.1 h c hc
    constructor
    · simp only [isAsciiWordChar, Bool.and_eq_true, decide_eq_true_eq] at hword
      rw [isPathChar_of_ascii hword.1, hword.2, Bool.true_or]
    · rintro rfl
      cases hword

/-- An error of a kind that is not known, which may be sent to another thread. -/
def boxedError : Tree :=
  .named [.ofAscii "alloc", .ofAscii "boxed"] (.ofAscii "Box") [.object [
    .named [.ofAscii "core", .ofAscii "error"] (.ofAscii "Error") [],
    .named [.ofAscii "core", .ofAscii "marker"] (.ofAscii "Send") []]]

def lentPair : Tree := .reference true (.tuple [.named [] (.ofAscii "u8") [], boxedError])

theorem shorten_drops_prefixes_nested :
    let front := "&mut (u8, alloc::boxed::Box"
    let back := "dyn core::error::Error + core::marker::Send>)"
    let name := front ++ String.singleton '<' ++ back
    name = lentPair.name ∧ isPathChar '<' = false ∧
      shorten name = "&mut (u8, Box<dyn Error + Send>)" ∧
      shorten name = shorten front ++ String.singleton '<' ++ shorten back := by
  intro front back name
  have hname : name = lentPair.name := by decide +kernel
  have hshort : lentPair.short.name = "&mut (u8, Box<dyn Error + Send>)" := by decide +kernel
  have hsign : isPathChar '<' = false := isPathChar_of_ascii (by decide)
  obtain ⟨-, -, -, happend, htree⟩ := shorten_drops_prefixes name
  exact ⟨hname, hsign, (htree lentPair hname).trans hshort, happend front back '<' hsign rfl⟩

end FunctionWorker.TypeName
