import Mathlib.Data.List.Basic
import Mathlib.Data.List.Induction
import FunctionWorker.Declaration.Basic

/-!
# What a declaration declares

A declaration is read in two steps. Its attributes become settings, and the settings become the
options of the program. Read as a whole it is simpler: an option has the value of the last attribute
of its name, whatever other attributes stand in between, and what is wrong is reported from the left
to the right, the function last.

Results:
1. `add_of_wellFormed`, `add_of_offends`: what one attribute does.
2. `ofList_of_wellFormed`, `ofList_of_first`: what all of them do.
3. `ofSettings_settings`: the settings of attributes make the options that they tell.
4. `declare_agrees`: what a declaration declares.
-/

namespace FunctionWorker

open Json (Codec)

/-! ## Definitions -/

/-- What kind of literal an attribute takes. -/
inductive LiteralKind where
  | flag
  | text
  | count
  deriving DecidableEq, Repr

/-- A literal is of a kind. -/
inductive Literal.IsA : Literal → LiteralKind → Prop
  | flag {b : Bool} : IsA (.bool b) .flag
  | text {s : String} : IsA (.text s) .text
  | count {negative : Bool} {n : Nat} : IsA (.integer negative n) .count

namespace Literal

def flag? : Literal → Option Bool
  | .bool b => some b
  | _ => none

def text? : Literal → Option String
  | .text s => some s
  | _ => none

def count? : Literal → Option Nat
  | .integer false n => some n
  | _ => none

end Literal

namespace Attribute

/-- The kind of literal that a name takes, if it is the name of an attribute. -/
def kind? : String → Option LiteralKind
  | "escape_html" | "sigterm" | "disallow_unknown_fields" | "use_number" => some .flag
  | "indent" | "prefix" => some .text
  | "concurrency" => some .count
  | _ => none

/-- A literal can be the value of the name. A number of loops has no sign and is not too large. -/
inductive Takes : String → Literal → Prop
  | flag {name : String} {b : Bool} : kind? name = some .flag → Takes name (.bool b)
  | text {name s : String} : kind? name = some .text → Takes name (.text s)
  | count {name : String} {n : Nat} : kind? name = some .count → n ≤ StartSettings.maxWorkers →
      Takes name (.integer false n)

/-- The attribute sets a known name to a literal that it takes. -/
inductive WellFormed : Attribute → Prop
  | assigned {name : String} {literal : Literal} : Takes name literal →
      WellFormed ⟨[name], .assigned (some literal)⟩

/-- What is reported of an attribute. -/
inductive Offends : Attribute → DeclarationFault → Prop
  | bare {path : List String} : Offends ⟨path, .bare⟩ .noAssignment
  | list {path : List String} : Offends ⟨path, .list⟩ .noAssignment
  | path {path : List String} {value : Option Literal} : path.length ≠ 1 →
      Offends ⟨path, .assigned value⟩ .noIdentifier
  | value {name : String} : Offends ⟨[name], .assigned none⟩ .noLiteral
  | unknown {name : String} {literal : Literal} : kind? name = none →
      Offends ⟨[name], .assigned (some literal)⟩ (.unknownAttribute name)
  | literalType {name : String} {literal : Literal} {kind : LiteralKind} :
      kind? name = some kind → ¬ literal.IsA kind →
      Offends ⟨[name], .assigned (some literal)⟩ (.literalType name)
  | negative {name : String} {n : Nat} : kind? name = some .count →
      Offends ⟨[name], .assigned (some (.integer true n))⟩ (.numeral .invalidDigit)
  | tooLarge {name : String} {n : Nat} : kind? name = some .count → StartSettings.maxWorkers < n →
      Offends ⟨[name], .assigned (some (.integer false n))⟩ (.numeral .tooLarge)

/-- The literal that an attribute gives to a name. -/
def literal? (name : String) (a : Attribute) : Option Literal :=
  match a.form with
  | .assigned value => if a.path = [name] then value else none
  | _ => none

/-- The literal of the last attribute of a name. -/
def lastLiteral? (name : String) (as : List Attribute) : Option Literal :=
  (as.filterMap (literal? name)).getLast?

def lastFlag? (name : String) (as : List Attribute) : Option Bool :=
  (lastLiteral? name as).bind Literal.flag?

def lastText? (name : String) (as : List Attribute) : Option String :=
  (lastLiteral? name as).bind Literal.text?

def lastCount? (name : String) (as : List Attribute) : Option Nat :=
  (lastLiteral? name as).bind Literal.count?

end Attribute

open Attribute

/-- What attributes tell. -/
def Attributes.told (as : List Attribute) : Attributes where
  escapeHtml := lastFlag? "escape_html" as
  indent := lastText? "indent" as
  lead := lastText? "prefix" as
  concurrency := lastCount? "concurrency" as
  sigterm := lastFlag? "sigterm" as
  disallowUnknownFields := lastFlag? "disallow_unknown_fields" as
  useNumber := lastFlag? "use_number" as

/-- The options that attributes tell. Each has the value of the last attribute of its name, or its
default if there is none. -/
def Options.told (as : List Attribute) : Options :=
  { Options.default with
    codec :=
      { escapeHtml := (lastFlag? "escape_html" as).getD Codec.default.escapeHtml
        lead := (lastText? "prefix" as).getD Codec.default.lead
        indent := (lastText? "indent" as).getD Codec.default.indent
        disallowUnknownFields :=
          (lastFlag? "disallow_unknown_fields" as).getD Codec.default.disallowUnknownFields
        useNumber := (lastFlag? "use_number" as).getD Codec.default.useNumber }
    sigterm := (lastFlag? "sigterm" as).getD false
    concurrency := lastCount? "concurrency" as }

/-- The number of arguments of the functions that an adapter takes. -/
def AdapterKind.arity : AdapterKind → Nat
  | .unit => 0
  | .context => 1
  | .input => 1
  | .contextAndInput => 2

namespace EntryPoint

/-- A function with attributes can be declared. -/
structure Accepted (as : List Attribute) (s : Signature) : Prop where
  attributes : ∀ a ∈ as, a.WellFormed
  isAsync : s.isAsync = true
  name : s.name ≠ "main"
  arguments : s.arguments.length ≤ 2

/-- What is reported of a declaration: the first attribute that offends, or else what is wrong with
the function. -/
inductive Refused (as : List Attribute) (s : Signature) : DeclarationFault → Prop
  | first {before after : List Attribute} {a : Attribute} {fault : DeclarationFault} :
      as = before ++ a :: after → (∀ b ∈ before, b.WellFormed) → a.Offends fault →
      Refused as s fault
  | notAsync : (∀ a ∈ as, a.WellFormed) → s.isAsync = false → Refused as s .notAsync
  | reservedName : (∀ a ∈ as, a.WellFormed) → s.isAsync = true → s.name = "main" →
      Refused as s .reservedName
  | tooManyArguments : (∀ a ∈ as, a.WellFormed) → s.isAsync = true → s.name ≠ "main" →
      2 < s.arguments.length → Refused as s .tooManyArguments

end EntryPoint

/-! ## One attribute -/

namespace Attribute

variable {a : Attribute} {as : List Attribute} {name : String}

theorem mem_names_iff : name ∈ Attributes.names ↔ (kind? name).isSome = true := by
  constructor
  · intro h
    simp only [Attributes.names, List.mem_cons, List.not_mem_nil, or_false] at h
    rcases h with rfl | rfl | rfl | rfl | rfl | rfl | rfl <;> rfl
  · intro h
    unfold kind? at h
    split at h
    all_goals first | decide | cases h

theorem kind?_eq_flag (h : kind? name = some .flag) : name = "escape_html" ∨ name = "sigterm" ∨
    name = "disallow_unknown_fields" ∨ name = "use_number" := by
  unfold kind? at h
  split at h <;> cases h <;> simp

theorem kind?_eq_text (h : kind? name = some .text) : name = "indent" ∨ name = "prefix" := by
  unfold kind? at h
  split at h <;> cases h <;> simp

theorem kind?_eq_count (h : kind? name = some .count) : name = "concurrency" := by
  unfold kind? at h
  split at h <;> cases h
  rfl

theorem contains_names (name : String) : Attributes.names.contains name = (kind? name).isSome := by
  rw [Bool.eq_iff_iff, List.contains_iff_mem, mem_names_iff]

/-- An attribute is well-formed or something is reported of it. -/
theorem wellFormed_or_offends (a : Attribute) : a.WellFormed ∨ ∃ fault, a.Offends fault := by
  obtain ⟨path, form⟩ := a
  cases form with
  | bare => exact .inr ⟨_, .bare⟩
  | list => exact .inr ⟨_, .list⟩
  | assigned value =>
    match path, value with
    | [], _ => exact .inr ⟨_, .path (by simp)⟩
    | _ :: _ :: _, _ => exact .inr ⟨_, .path (by simp)⟩
    | [_], none => exact .inr ⟨_, .value⟩
    | [name], some literal =>
      cases hkind : kind? name with
      | none => exact .inr ⟨_, .unknown hkind⟩
      | some kind =>
        by_cases hliteral : literal.IsA kind
        · cases hliteral with
          | flag => exact .inl ⟨.flag hkind⟩
          | text => exact .inl ⟨.text hkind⟩
          | @count negative n =>
            cases negative with
            | true => exact .inr ⟨_, .negative hkind⟩
            | false =>
              rcases Nat.lt_or_ge StartSettings.maxWorkers n with hlarge | hfits
              · exact .inr ⟨_, .tooLarge hkind hlarge⟩
              · exact .inl ⟨.count hkind hfits⟩
        · exact .inr ⟨_, .literalType hkind hliteral⟩

/-- All attributes are well-formed, or one of them is the first that offends. -/
theorem wellFormed_or_first (as : List Attribute) : (∀ a ∈ as, a.WellFormed) ∨
    ∃ before a after fault,
      as = before ++ a :: after ∧ (∀ b ∈ before, b.WellFormed) ∧ a.Offends fault := by
  induction as with
  | nil => exact .inl nofun
  | cons a as ih =>
    rcases a.wellFormed_or_offends with ha | ⟨fault, hfault⟩
    · rcases ih with hall | ⟨before, b, after, fault, rfl, hbefore, hb⟩
      · exact .inl (List.forall_mem_cons.2 ⟨ha, hall⟩)
      · exact .inr ⟨a :: before, b, after, fault, rfl, List.forall_mem_cons.2 ⟨ha, hbefore⟩, hb⟩
    · exact .inr ⟨[], a, as, fault, rfl, nofun, hfault⟩

theorem lastLiteral?_concat (name : String) (as : List Attribute) (a : Attribute) :
    lastLiteral? name (as ++ [a]) = (a.literal? name).or (lastLiteral? name as) := by
  rw [lastLiteral?, List.filterMap_append, lastLiteral?]
  cases h : a.literal? name with
  | none => rw [List.filterMap_cons_none h, List.filterMap_nil, List.append_nil, Option.none_or]
  | some literal =>
    rw [List.filterMap_cons_some h, List.filterMap_nil, List.getLast?_concat, Option.some_or]

theorem literal?_of_path_ne (h : a.path ≠ [name]) : a.literal? name = none := by
  unfold literal?
  split
  · exact if_neg h
  · rfl

/-- Attributes of other names do not matter to a name. -/
theorem lastLiteral?_filter (name : String) (as : List Attribute) :
    lastLiteral? name (as.filter fun a => a.path = [name]) = lastLiteral? name as := by
  rw [lastLiteral?, List.filterMap_filter, lastLiteral?]
  congr 1
  refine List.filterMap_congr fun a _ => ?_
  by_cases ha : a.path = [name]
  · rw [if_pos (by simpa using ha)]
  · rw [if_neg (by simpa using ha), literal?_of_path_ne ha]

end Attribute

namespace Attributes

variable {a : Attribute}

/-- A literal of another kind than the one that the name takes is never assigned. -/
theorem assign_of_not_isA (as : Attributes) {name : String} {literal : Literal}
    (h : ∀ kind, kind? name = some kind → ¬ literal.IsA kind) :
    as.assign name literal =
      if (kind? name).isSome then .error (.literalType name)
      else .error (.unknownAttribute name) := by
  unfold assign
  split
  case h_8 => rw [contains_names]
  all_goals exact absurd (by constructor) (h _ rfl)

/-- An attribute that offends stops the reading, whatever was read before. -/
theorem add_of_offends {fault : DeclarationFault} (h : a.Offends fault) (as : Attributes) :
    as.add a = .error fault := by
  cases h with
  | bare => rfl
  | list => rfl
  | @path path value hpath =>
    match path with
    | [] => rfl
    | [_] => exact absurd rfl hpath
    | _ :: _ :: _ => rfl
  | value => rfl
  | @unknown name literal hkind =>
    have hno : ∀ kind, kind? name = some kind → ¬ literal.IsA kind := by simp [hkind]
    have hassign := as.assign_of_not_isA hno
    rw [hkind] at hassign
    exact hassign
  | @literalType name literal kind hkind hliteral =>
    have hno : ∀ kind, kind? name = some kind → ¬ literal.IsA kind := by simpa [hkind]
    have hassign := as.assign_of_not_isA hno
    rw [hkind] at hassign
    exact hassign
  | @negative name n hkind =>
    obtain rfl := kind?_eq_count hkind
    rfl
  | @tooLarge name n hkind hlarge =>
    obtain rfl := kind?_eq_count hkind
    have hworkers : workers false n = .error (.numeral .tooLarge) := by
      simp [workers, Nat.not_le.2 hlarge]
    change (workers false n).bind _ = _
    rw [hworkers]
    rfl

/-- A well-formed attribute is told after those before it. -/
theorem add_of_wellFormed (h : a.WellFormed) (as : List Attribute) :
    (told as).add a = .ok (told (as ++ [a])) := by
  obtain ⟨htakes⟩ := h
  cases htakes with
  | flag hkind =>
    rcases kind?_eq_flag hkind with rfl | rfl | rfl | rfl
    all_goals simp [add, assign, told, lastFlag?, lastText?, lastCount?, lastLiteral?_concat,
      literal?, Literal.flag?]
  | text hkind =>
    rcases kind?_eq_text hkind with rfl | rfl
    all_goals simp [add, assign, told, lastFlag?, lastText?, lastCount?, lastLiteral?_concat,
      literal?, Literal.text?]
  | count hkind hfits =>
    obtain rfl := kind?_eq_count hkind
    simp [add, assign, told, lastFlag?, lastText?, lastCount?, lastLiteral?_concat,
      literal?, Literal.count?, workers, hfits]

/-! ## All attributes -/

theorem ofList_concat (as : List Attribute) (a : Attribute) :
    ofList (as ++ [a]) = (ofList as).bind fun read => read.add a := by
  rw [ofList, List.foldlM_append]
  change (ofList as).bind (fun read => [a].foldlM add read) = _
  simp only [List.foldlM_cons, List.foldlM_nil, bind_pure]

/-- Attributes are read as what they tell. -/
theorem ofList_of_wellFormed {as : List Attribute} (h : ∀ a ∈ as, a.WellFormed) :
    ofList as = .ok (told as) := by
  -- The last attribute is read onto what those before it tell.
  induction as using List.reverseRecOn with
  | nil => rfl
  | append_singleton as a ih =>
    rw [ofList_concat, ih fun b hb => h b (List.mem_append_left _ hb)]
    exact add_of_wellFormed (h a (by simp)) as

/-- The first attribute that offends is reported, whatever stands behind it. -/
theorem ofList_of_first {before after : List Attribute} {fault : DeclarationFault}
    (hbefore : ∀ b ∈ before, b.WellFormed) (ha : a.Offends fault) :
    ofList (before ++ a :: after) = .error fault := by
  rw [ofList, List.foldlM_append]
  change (ofList before).bind (fun read => (a :: after).foldlM add read) = _
  rw [ofList_of_wellFormed hbefore]
  change (add (told before) a).bind (fun read => after.foldlM add read) = _
  rw [add_of_offends ha]
  rfl

/-- The order of attributes matters only among those of one name. -/
theorem told_congr {as others : List Attribute}
    (h : ∀ path, (others.filter fun a => a.path = path) = as.filter fun a => a.path = path) :
    told others = told as := by
  have hlast : ∀ name, lastLiteral? name others = lastLiteral? name as := by
    intro name
    rw [← lastLiteral?_filter, h, lastLiteral?_filter]
  simp only [told, lastFlag?, lastText?, lastCount?, hlast]

/-! ## Settings -/

section Settings

variable (o : Options)

theorem foldl_escapeHtml (x : Option Bool) :
    (x.map Setting.escapeHtml).toList.foldl Options.set o =
      { o with codec := { o.codec with escapeHtml := x.getD o.codec.escapeHtml } } := by
  cases x <;> rfl

/-- Lead and indent are set together, and the one that is missing is empty. -/
theorem foldl_indent (indent lead : Option String) (hlead : o.codec.lead = "")
    (hindent : o.codec.indent = "") :
    (if indent.isSome || lead.isSome then [Setting.indent (lead.getD "") (indent.getD "")]
      else []).foldl Options.set o =
      { o with codec := { o.codec with lead := lead.getD "", indent := indent.getD "" } } := by
  -- One of the two sets the other to the empty text, which it has to be already.
  obtain ⟨base, ⟨escapeHtml, lead', indent', disallow, useNumber⟩, _, _, _, _⟩ := o
  obtain rfl : lead' = "" := hlead
  obtain rfl : indent' = "" := hindent
  cases indent <;> cases lead <;> rfl

theorem foldl_disallowUnknownFields (x : Option Bool) :
    (x.map Setting.disallowUnknownFields).toList.foldl Options.set o =
      { o with
        codec := { o.codec with disallowUnknownFields := x.getD o.codec.disallowUnknownFields } } := by
  cases x <;> rfl

theorem foldl_useNumber (x : Option Bool) :
    (x.map Setting.useNumber).toList.foldl Options.set o =
      { o with codec := { o.codec with useNumber := x.getD o.codec.useNumber } } := by
  cases x <;> rfl

theorem foldl_concurrency (x : Option Nat) :
    (x.map Setting.concurrency).toList.foldl Options.set o =
      { o with concurrency := x.or o.concurrency } := by
  cases x <;> rfl

theorem foldl_sigterm (x : Option Bool) :
    (if x = some true then [Setting.enableSigterm] else []).foldl Options.set o =
      { o with sigterm := x.getD false || o.sigterm } := by
  rcases x with _ | _ | _ <;> rfl

end Settings

/-- The settings of attributes make the options that they tell. -/
theorem ofSettings_settings (as : List Attribute) :
    Options.ofSettings (told as).settings = Options.told as := by
  simp only [Options.ofSettings, settings, List.foldl_append]
  rw [foldl_escapeHtml, foldl_indent _ _ _ rfl rfl, foldl_disallowUnknownFields, foldl_useNumber,
    foldl_concurrency, foldl_sigterm]
  simp [Options.told, told, Options.default, Codec.default]

end Attributes

/-! ## Declarations -/

namespace Signature

variable {s : Signature}

theorem adapterKind_of_le (h : s.arguments.length ≤ 2) : ∃ kind, s.adapterKind = .ok kind := by
  unfold adapterKind
  split
  · exact ⟨_, rfl⟩
  · exact ⟨_, rfl⟩
  · exact ⟨_, rfl⟩
  · next hnone hone htwo =>
    match hs : s.arguments with
    | [] => exact absurd hs hnone
    | [a] => exact absurd hs (hone a)
    | [a, b] => exact absurd hs (htwo a b)
    | _ :: _ :: _ :: _ =>
      rw [hs] at h
      simp only [List.length_cons] at h
      omega

theorem adapterKind_of_gt (h : 2 < s.arguments.length) :
    s.adapterKind = .error .tooManyArguments := by
  unfold adapterKind
  split
  · next hs => simp [hs] at h
  · next hs => simp [hs] at h
  · next hs => simp [hs] at h
  · rfl

/-- An adapter takes the arguments of the function. -/
theorem arity_of_adapterKind {kind : AdapterKind} (h : s.adapterKind = .ok kind) :
    kind.arity = s.arguments.length := by
  unfold adapterKind at h
  split at h
  · next hs =>
    cases h
    rw [hs]
    rfl
  · next argument hs =>
    cases h
    rw [hs]
    cases argument.isContext <;> rfl
  · next hs =>
    cases h
    rw [hs]
    rfl
  · cases h

end Signature

theorem Argument.isContext_iff {a : Argument} :
    a.isContext = true ↔ ∃ leading, a = .path (leading ++ ["Context"]) := by
  cases a with
  | receiver => simp [isContext]
  | path segments => simp [isContext, List.getLast?_eq_some_iff]
  | otherType => simp [isContext]

/-- Only a function of one argument is taken with the context alone, and the type of the argument
ends in that name. -/
theorem Signature.adapterKind_eq_context_iff {s : Signature} :
    s.adapterKind = .ok .context ↔ ∃ leading, s.arguments = [.path (leading ++ ["Context"])] := by
  unfold adapterKind
  split
  · next hs => simp [hs]
  · next argument hs =>
    cases hcontext : argument.isContext with
    | true =>
      obtain ⟨leading, rfl⟩ := Argument.isContext_iff.1 hcontext
      exact ⟨fun _ => ⟨leading, hs⟩, fun _ => rfl⟩
    | false =>
      refine ⟨nofun, fun ⟨leading, hleading⟩ => ?_⟩
      rw [hs] at hleading
      have htrue := Argument.isContext_iff.2 ⟨leading, (List.cons.inj hleading).1⟩
      rw [hcontext] at htrue
      cases htrue
  · next hs => simp [hs]
  · next _ hone _ => exact ⟨nofun, fun ⟨_, hs⟩ => absurd hs (hone _)⟩

namespace EntryPoint

variable {as : List Attribute} {s : Signature} {fault : DeclarationFault}

theorem declare_of_accepted (h : Accepted as s) : ∃ adapter, s.adapterKind = .ok adapter ∧
    declare as s = .ok ⟨adapter, s.name, (Attributes.told as).settings⟩ := by
  obtain ⟨adapter, hadapter⟩ := Signature.adapterKind_of_le h.arguments
  refine ⟨adapter, hadapter, ?_⟩
  simp only [declare, Attributes.ofList_of_wellFormed h.attributes, h.isAsync, h.name, hadapter]
  rfl

theorem declare_of_refused (h : Refused as s fault) : declare as s = .error fault := by
  cases h with
  | first hsplit hbefore ha =>
    rw [declare, hsplit, Attributes.ofList_of_first hbefore ha]
    rfl
  | notAsync hattributes hasync =>
    simp only [declare, Attributes.ofList_of_wellFormed hattributes, hasync]
    rfl
  | reservedName hattributes hasync hname =>
    simp only [declare, Attributes.ofList_of_wellFormed hattributes, hasync, hname]
    rfl
  | tooManyArguments hattributes hasync hname harguments =>
    simp only [declare, Attributes.ofList_of_wellFormed hattributes, hasync, hname,
      Signature.adapterKind_of_gt harguments]
    rfl

theorem accepted_or_refused (as : List Attribute) (s : Signature) :
    Accepted as s ∨ ∃ fault, Refused as s fault := by
  rcases Attribute.wellFormed_or_first as with
    hattributes | ⟨before, a, after, fault, hsplit, hbefore, ha⟩
  · by_cases hasync : s.isAsync = true
    · by_cases hname : s.name = "main"
      · exact .inr ⟨_, .reservedName hattributes hasync hname⟩
      · rcases Nat.lt_or_ge 2 s.arguments.length with hmany | hfew
        · exact .inr ⟨_, .tooManyArguments hattributes hasync hname hmany⟩
        · exact .inl ⟨hattributes, hasync, hname, hfew⟩
    · exact .inr ⟨_, .notAsync hattributes (Bool.eq_false_iff.2 hasync)⟩
  · exact .inr ⟨fault, .first hsplit hbefore ha⟩

theorem exists_declare_iff : (∃ e, declare as s = .ok e) ↔ Accepted as s := by
  constructor
  · rintro ⟨e, he⟩
    rcases accepted_or_refused as s with haccepted | ⟨fault, hrefused⟩
    · exact haccepted
    · rw [declare_of_refused hrefused] at he
      cases he
  · intro h
    obtain ⟨adapter, -, hdeclare⟩ := declare_of_accepted h
    exact ⟨_, hdeclare⟩

theorem declare_eq_error_iff : declare as s = .error fault ↔ Refused as s fault := by
  refine ⟨fun h => ?_, declare_of_refused⟩
  rcases accepted_or_refused as s with haccepted | ⟨other, hrefused⟩
  · obtain ⟨adapter, -, hdeclare⟩ := declare_of_accepted haccepted
    rw [hdeclare] at h
    cases h
  · rw [declare_of_refused hrefused] at h
    cases h
    exact hrefused

/-- A function that can be declared can also be declared with its attributes in another order. -/
theorem Accepted.of_filter {others : List Attribute} (h : Accepted as s)
    (hothers : ∀ path,
      (others.filter fun a => a.path = path) = as.filter fun a => a.path = path) :
    Accepted others s := by
  refine { h with attributes := fun a ha => h.attributes a ?_ }
  have hfilter : a ∈ others.filter fun b => b.path = a.path := List.mem_filter.2 ⟨ha, by simp⟩
  rw [hothers] at hfilter
  exact List.mem_of_mem_filter hfilter

/-- What is declared agrees with what was written.

A function is declared exactly when each of its attributes sets a known name to a literal that the
name takes, it is asynchronous, it has another name than the entry point, and it takes at most two
arguments. Else the first attribute that offends is reported, and what is wrong with the function
only if none does. The program starts with the options that the last attribute of each name tells,
and with an adapter for the arguments of the function. The order of attributes matters only among
those of one name. -/
theorem declare_agrees (as : List Attribute) (s : Signature) :
    ((∃ e, declare as s = .ok e) ↔ Accepted as s) ∧
    (∀ fault, declare as s = .error fault ↔ Refused as s fault) ∧
    ∀ e, declare as s = .ok e →
      e.function = s.name ∧
      e.options = Options.told as ∧
      e.adapter.arity = s.arguments.length ∧
      (e.adapter = .context ↔ ∃ leading, s.arguments = [.path (leading ++ ["Context"])]) ∧
      ∀ others, (∀ path,
          (others.filter fun a => a.path = path) = as.filter fun a => a.path = path) →
        declare others s = .ok e := by
  refine ⟨exists_declare_iff, fun _ => declare_eq_error_iff, fun e he => ?_⟩
  have haccepted : Accepted as s := exists_declare_iff.1 ⟨e, he⟩
  obtain ⟨adapter, hadapter, hdeclare⟩ := declare_of_accepted haccepted
  obtain rfl : _ = e := Except.ok.inj (hdeclare.symm.trans he)
  refine ⟨rfl, Attributes.ofSettings_settings as, Signature.arity_of_adapterKind hadapter, ?context,
    ?order⟩
  case context =>
    rw [← Signature.adapterKind_eq_context_iff, hadapter]
    exact ⟨congrArg _, Except.ok.inj⟩
  case order =>
    intro others hothers
    obtain ⟨other, hother, hagain⟩ := declare_of_accepted (haccepted.of_filter hothers)
    obtain rfl : adapter = other := Except.ok.inj (hadapter.symm.trans hother)
    rw [hagain, Attributes.told_congr hothers]

/-- The last attribute of a name counts, and the first one that offends is reported. -/
example :
    declare
      [⟨["prefix"], .assigned (some (.text " "))⟩, ⟨["sigterm"], .assigned (some (.bool true))⟩,
        ⟨["sigterm"], .assigned (some (.bool false))⟩]
      ⟨"handle", true, []⟩ = .ok ⟨.unit, "handle", [.indent " " ""]⟩ ∧
    declare
      [⟨["prefix"], .assigned (some (.integer false 1))⟩, ⟨["speed"], .bare⟩]
      ⟨"main", false, []⟩ = .error (.literalType "prefix") := ⟨rfl, rfl⟩

end EntryPoint

end FunctionWorker
