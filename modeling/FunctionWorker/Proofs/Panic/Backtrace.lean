import Mathlib.Data.List.Basic
import FunctionWorker.Panic.Backtrace
import FunctionWorker.Proofs.Text.Lines
import FunctionWorker.Proofs.Text.Numeral

/-!
# Reading a backtrace that was printed

A backtrace is printed from entries. An entry is a symbol, with a number in front or without, and
the line below may tell its place. Only what could be taken for something else is kept out of an
entry: a symbol without a number must look neither like a place nor like a symbol with a number.

Results:
1. `place?_printed`, `symbolText_numbered`, `plain_iff`: what one line tells.
2. `symbols_printed`: the symbols of a backtrace are those of its entries.
3. `userSymbols_eq`: the symbols of the user are those above the boundary, less the machinery.
4. `frames_printed`: the frames read from a backtrace.
-/

namespace FunctionWorker.Panic

open Decimal (digitsOf)

/-! ## Definitions -/

/-- The mark in front of a place. -/
def placeMark : List Char := ['a', 't', ' ']

/-- The mark behind the number of a symbol. -/
def numberMark : List Char := [':', ' ']

/-- White space in front of what a line tells. -/
structure IsIndent (cs : List Char) : Prop where
  blank : Text.IsBlankText cs
  oneLine : '\n' ∉ cs

instance (cs : List Char) : Decidable (IsIndent cs) :=
  decidable_of_iff (Text.IsBlankText cs ∧ '\n' ∉ cs)
    ⟨fun h => ⟨h.1, h.2⟩, fun h => ⟨h.blank, h.oneLine⟩⟩

/-- A place as a backtrace tells it. The name of the file may hold colons and white space. -/
structure PrintedPlace where
  indent : List Char
  file : List Char
  line : Nat
  column : Nat
  isIndent : IsIndent indent := by decide +kernel
  oneLine : '\n' ∉ file := by decide +kernel
  bounded : line ≤ 4294967295 := by decide

/-- A symbol that tells by itself that it is one. -/
structure Plain (symbol : List Char) : Prop where
  noPlace : ∀ rest, symbol ≠ placeMark ++ rest
  noNumber : ∀ number rest, (∀ c ∈ number, c.isDigit = true) →
    symbol ≠ number ++ numberMark ++ rest

/-- An entry of a backtrace. A symbol that was inlined into the one above it has no number. -/
structure Entry where
  margin : List Char
  number : Option Nat
  symbol : List Char
  place : Option PrintedPlace
  isIndent : IsIndent margin := by decide +kernel
  nonempty : symbol ≠ [] := by decide
  oneLine : '\n' ∉ symbol := by decide +kernel
  tight : Text.Tight symbol := by decide +kernel
  plain : number = none → Plain symbol := by decide +kernel

/-- What the line of a place tells. -/
def PrintedPlace.text (p : PrintedPlace) : List Char :=
  p.file ++ ':' :: (digitsOf p.line ++ ':' :: digitsOf p.column)

/-- The file and the line that a reader finds. -/
def PrintedPlace.found (p : PrintedPlace) : List Char × Nat := (packagePath p.file, p.line)

namespace Entry

/-- The symbol with what stands in front of it. -/
def text (e : Entry) : List Char :=
  match e.number with
  | some n => digitsOf n ++ numberMark ++ e.symbol
  | none => e.symbol

/-- The lines of an entry. -/
def lines (e : Entry) : List (List Char) :=
  (e.margin ++ e.text) :: e.place.toList.map fun p => p.indent ++ (placeMark ++ p.text)

/-- Whether the entry is where panics are caught. -/
def isBoundary (e : Entry) : Bool := Panic.isBoundary e.symbol

/-- Whether the entry is no machinery of the language. -/
def isUser (e : Entry) : Bool := !isMachinery e.symbol

/-- The symbol that a reader finds. -/
def found (e : Entry) : Symbol := ⟨e.symbol, e.place.map PrintedPlace.found⟩

/-- The frame of an entry. An entry without a place has an empty path and the line zero. -/
def frame (e : Entry) : StackFrame :=
  { path := String.ofList ((e.place.map fun p => packagePath p.file).getD [])
    line := (e.place.map PrintedPlace.line).getD 0
    label := String.ofList (Panic.label e.symbol) }

end Entry

/-! ## Digits and signs -/

theorem digitsOf_ne_nil (n : Nat) : digitsOf n ≠ [] := Nat.toDigits_ne_nil

theorem tight_digitsOf (n : Nat) : Text.Tight (digitsOf n) :=
  Text.tight_digits (Text.isDigit_digitsOf n)

theorem IsIndent.notMem_append {indent cs : List Char} (h : IsIndent indent) (hcs : '\n' ∉ cs) :
    '\n' ∉ indent ++ cs := fun hc => (List.mem_append.1 hc).elim h.oneLine hcs

/-- A tight text behind an indent is a line. -/
theorem isLine_indented {indent cs : List Char} (hindent : IsIndent indent) (hne : cs ≠ [])
    (hcs : '\n' ∉ cs) (htight : Text.Tight cs) : Text.IsLine (indent ++ cs) where
  nonempty := fun h => hne (List.append_eq_nil_iff.1 h).2
  feedless := hindent.notMem_append hcs
  ending := by
    rw [List.getLast?_append_of_ne_nil _ hne]
    intro hlast
    have hblank : Text.isBlank '\r' = false := htight.last _ hlast
    exact absurd hblank (by decide +kernel)

/-! ## The line of a place -/

namespace PrintedPlace

variable (p : PrintedPlace)

theorem text_oneLine : '\n' ∉ p.text := by
  have hdigits := fun n => Text.notMem_digitsOf (c := '\n') (by decide) n
  simp [text, p.oneLine, hdigits]

theorem tight : Text.Tight (placeMark ++ p.text) := by
  have hmark : Text.Tight ['a'] := by decide +kernel
  have hsplit : placeMark ++ p.text =
      ['a'] ++ (['t', ' '] ++ p.file ++ ':' :: digitsOf p.line ++ [':']) ++ digitsOf p.column := by
    simp [placeMark, text]
  rw [hsplit]
  exact hmark.append (tight_digitsOf _) (List.cons_ne_nil _ _) (digitsOf_ne_nil _) _

theorem isLine : Text.IsLine (p.indent ++ (placeMark ++ p.text)) := by
  refine isLine_indented p.isIndent (List.cons_ne_nil _ _) ?_ p.tight
  intro hc
  rcases List.mem_append.1 hc with hmark | htext
  · exact absurd hmark (by decide)
  · exact p.text_oneLine htext

/-- A place is cut at its last two colons, so those in the name of the file stay there. -/
theorem place?_printed : place? p.text = some p.found := by
  have hcolon := fun n => Text.notMem_digitsOf (c := ':') (by decide) n
  have hcolumn : Text.cutLast? [':'] p.text =
      some (p.file ++ ':' :: digitsOf p.line, digitsOf p.column) := by
    have hsplit : p.text = (p.file ++ ':' :: digitsOf p.line) ++ ':' :: digitsOf p.column := by
      simp [text]
    rw [hsplit, Text.cutLast?_append (hcolon _)]
  have hline : Text.cutLast? [':'] (p.file ++ ':' :: digitsOf p.line) =
      some (p.file, digitsOf p.line) := Text.cutLast?_append (hcolon _)
  have hnumber := Text.natural_digitsOf p.bounded
  simp [place?, hcolumn, hline, hnumber, Except.toOption, found]

/-- The line of a place gives it to the last symbol. -/
theorem takeLine_printed (symbols : List Symbol) (s : Symbol) :
    takeLine (symbols ++ [s]) (p.indent ++ (placeMark ++ p.text)) =
      symbols ++ [{ s with place := some p.found }] := by
  have htrim : Text.trim (p.indent ++ (placeMark ++ p.text)) = placeMark ++ p.text :=
    Text.trim_behind p.isIndent.blank p.tight
  have hmark : Text.after? ['a', 't', ' '] (placeMark ++ p.text) = some p.text :=
    Text.after?_eq_some_iff.2 rfl
  simp only [takeLine, htrim, hmark, setLastPlace, p.place?_printed, List.getLast?_concat,
    List.dropLast_concat]

end PrintedPlace

/-! ## The line of a symbol -/

/-- Of a symbol with a number only the symbol is taken, whatever marks it holds itself. -/
theorem symbolText_numbered {number : List Char} (h : ∀ c ∈ number, c.isDigit = true)
    (symbol : List Char) : symbolText (number ++ numberMark ++ symbol) = symbol := by
  have hcolon : ':' ∉ number := fun hc => absurd (h _ hc) (by decide)
  have hcut : Text.cutFirst? [':', ' '] (number ++ numberMark ++ symbol) =
      some (number, symbol) := by
    rw [List.append_assoc]
    exact Text.cutFirst?_append hcolon
  rw [symbolText, hcut]
  exact if_pos (List.all_eq_true.2 h)

/-- A symbol is plain if its line is taken as it is. -/
theorem plain_iff {symbol : List Char} :
    Plain symbol ↔ Text.after? placeMark symbol = none ∧ symbolText symbol = symbol := by
  constructor
  · intro h
    refine ⟨Option.eq_none_iff_forall_ne_some.2 fun rest hrest =>
      h.noPlace rest (Text.after?_eq_some_iff.1 hrest), ?_⟩
    unfold symbolText
    split
    · next number rest hcut =>
      exact if_neg fun hdigits => h.noNumber number rest (List.all_eq_true.1 hdigits)
        (Text.eq_append_of_cutFirst? hcut)
    · rfl
  · rintro ⟨hplace, htext⟩
    refine ⟨fun rest heq => ?_, fun number rest hnumber heq => ?_⟩
    · rw [Text.after?_eq_some_iff.2 heq] at hplace
      cases hplace
    · have hrest : rest = number ++ numberMark ++ rest := by
        rw [heq, symbolText_numbered hnumber] at htext
        exact htext
      have hlength := congrArg List.length hrest
      simp only [List.length_append, numberMark, List.length_cons, List.length_nil] at hlength
      omega

instance (symbol : List Char) : Decidable (Plain symbol) := decidable_of_iff _ plain_iff.symm

namespace Entry

variable (e : Entry)

theorem text_ne_nil : e.text ≠ [] := by
  unfold text
  split
  · exact List.append_ne_nil_of_right_ne_nil _ e.nonempty
  · exact e.nonempty

theorem text_oneLine : '\n' ∉ e.text := by
  unfold text
  split
  · next n _ =>
    have hdigits := Text.notMem_digitsOf (c := '\n') (by decide) n
    simp [hdigits, numberMark, e.oneLine]
  · exact e.oneLine

theorem text_tight : Text.Tight e.text := by
  unfold text
  split
  · exact (tight_digitsOf _).append e.tight (digitsOf_ne_nil _) e.nonempty _
  · exact e.tight

theorem isLine_of_mem_lines {line : List Char} (h : line ∈ e.lines) : Text.IsLine line := by
  rcases List.mem_cons.1 h with rfl | hplace
  · exact isLine_indented e.isIndent e.text_ne_nil e.text_oneLine e.text_tight
  · obtain ⟨p, _, rfl⟩ := List.mem_map.1 hplace
    exact p.isLine

/-- No entry starts like a place: one with a number starts with a digit. -/
theorem after?_text : Text.after? placeMark e.text = none := by
  refine Option.eq_none_iff_forall_ne_some.2 fun rest hrest => ?_
  have heq : e.text = placeMark ++ rest := Text.after?_eq_some_iff.1 hrest
  unfold text at heq
  split at heq
  · next n _ =>
    obtain ⟨d, ds, hdigits⟩ := List.exists_cons_of_ne_nil (digitsOf_ne_nil n)
    have hd : d.isDigit = true := Text.isDigit_digitsOf n d (hdigits ▸ List.mem_cons_self)
    rw [hdigits] at heq
    obtain rfl : d = 'a' := (List.cons.inj heq).1
    exact absurd hd (by decide)
  · next hnumber => exact (e.plain hnumber).noPlace rest heq

theorem symbolText_text : symbolText e.text = e.symbol := by
  unfold text
  split
  · exact symbolText_numbered (Text.isDigit_digitsOf _) e.symbol
  · next hnumber => exact (plain_iff.1 (e.plain hnumber)).2

theorem takeLine_text (symbols : List Symbol) :
    takeLine symbols (e.margin ++ e.text) = symbols ++ [⟨e.symbol, none⟩] := by
  have htrim : Text.trim (e.margin ++ e.text) = e.text :=
    Text.trim_behind e.isIndent.blank e.text_tight
  have hmark : Text.after? ['a', 't', ' '] e.text = none := e.after?_text
  have hfull : ¬ e.symbol.isEmpty = true := fun h => e.nonempty (List.isEmpty_iff.1 h)
  simp only [takeLine, htrim, hmark, e.symbolText_text, if_neg hfull]

/-- The lines of an entry are taken up as its symbol with its place. -/
theorem foldl_lines (symbols : List Symbol) :
    e.lines.foldl takeLine symbols = symbols ++ [e.found] := by
  rw [lines, List.foldl_cons, e.takeLine_text, found]
  cases e.place with
  | none => rfl
  | some p => exact p.takeLine_printed symbols ⟨e.symbol, none⟩

end Entry

theorem foldl_printed (es : List Entry) (symbols : List Symbol) :
    (es.flatMap Entry.lines).foldl takeLine symbols = symbols ++ es.map Entry.found := by
  -- An entry only goes behind what was taken up before, so that may be anything.
  induction es generalizing symbols with
  | nil => exact (List.append_nil _).symm
  | cons e es ih =>
    rw [List.flatMap_cons, List.foldl_append, e.foldl_lines, ih, List.map_cons,
      List.append_assoc, List.singleton_append]

/-- The symbols of a backtrace are those of its entries, each with its own place. -/
theorem symbols_printed {es : List Entry} {text : List Char}
    (h : Text.Consists text (es.flatMap Entry.lines)) : symbols text = es.map Entry.found := by
  have hlines : Text.lines text = es.flatMap Entry.lines := by
    refine Text.lines_of_consists h fun line hline => ?_
    obtain ⟨e, _, he⟩ := List.mem_flatMap.1 hline
    exact e.isLine_of_mem_lines he
  rw [symbols, hlines, foldl_printed, List.nil_append]

/-! ## The symbols of the user -/

/-- What the panic has put on top is machinery, so to pass it first changes nothing, unless the
boundary itself is passed with it. -/
theorem userSymbols_eq {all : List Symbol}
    (h : (∃ s ∈ all, isBoundary s.name = true) →
      ∃ s ∈ all.takeWhile fun s => !isBoundary s.name, isMachinery s.name = false) :
    userSymbols all = (all.takeWhile fun s => !isBoundary s.name).filter
      fun s => !isMachinery s.name := by
  induction all with
  | nil => rfl
  | cons s all ih =>
    by_cases hmachinery : isMachinery s.name = true
    · by_cases hboundary : isBoundary s.name = true
      · -- The boundary would be passed as machinery, but nobody stands above it.
        obtain ⟨t, ht, -⟩ := h ⟨s, List.mem_cons_self, hboundary⟩
        rw [List.takeWhile_cons_of_neg (by simp [hboundary])] at ht
        cases ht
      · have hrest : userSymbols (s :: all) = userSymbols all := by
          rw [userSymbols, List.dropWhile_cons_of_pos (by simpa using hmachinery), userSymbols]
        rw [hrest, List.takeWhile_cons_of_pos (by simp [hboundary]),
          List.filter_cons_of_neg (by simp [hmachinery])]
        refine ih fun ⟨t, ht, hbelow⟩ => ?_
        obtain ⟨u, hu, huser⟩ := h ⟨t, List.mem_cons_of_mem _ ht, hbelow⟩
        rw [List.takeWhile_cons_of_pos (by simp [hboundary])] at hu
        rcases List.mem_cons.1 hu with rfl | hu
        · simp [hmachinery] at huser
        · exact ⟨u, hu, huser⟩
    · rw [userSymbols, List.dropWhile_cons_of_neg (by simpa using hmachinery)]

theorem Entry.frame_found (e : Entry) : e.found.frame = e.frame := by
  simp [Entry.found, Entry.frame, Symbol.frame, Option.map_map, Function.comp_def,
    PrintedPlace.found]

/-- The frames read from a backtrace are those of its entries above the first boundary that are no
machinery of the language, in their order, each with its own place.

The last line may be ended or not. A frame of the user must stand above the boundary, if there is a
boundary: where only machinery does, the reader passes the boundary together with it. -/
theorem frames_printed {es : List Entry} {text : List Char}
    (htext : Text.Consists text (es.flatMap Entry.lines))
    (huser : (∃ e ∈ es, e.isBoundary = true) →
      ∃ e ∈ es.takeWhile fun e => !e.isBoundary, e.isUser = true) :
    frames (String.ofList text) =
      ((es.takeWhile fun e => !e.isBoundary).filter Entry.isUser).map Entry.frame := by
  have hboundary : (∃ s ∈ es.map Entry.found, isBoundary s.name = true) →
      ∃ s ∈ (es.map Entry.found).takeWhile fun s => !isBoundary s.name,
        isMachinery s.name = false := by
    rintro ⟨_, hs, hbelow⟩
    obtain ⟨e, he, rfl⟩ := List.mem_map.1 hs
    obtain ⟨u, hu, hisUser⟩ := huser ⟨e, he, hbelow⟩
    rw [List.takeWhile_map]
    exact ⟨u.found, List.mem_map_of_mem hu, by simpa [Entry.isUser, Entry.found] using hisUser⟩
  rw [frames, String.toList_ofList, symbols_printed htext, userSymbols_eq hboundary,
    List.takeWhile_map, List.filter_map, List.map_map]
  exact List.map_congr_left fun e _ => e.frame_found

/-- A backtrace with a file whose name holds a colon and a space, a symbol that looks as if it had
a number of its own, an inlined symbol, and a symbol without a place. -/
def shopTrace : List Entry :=
  [{ margin := "   ".toList
     number := some 0
     symbol := "std::panicking::begin_panic".toList
     place := some
      { indent := "             ".toList
        file := "/rustc/abc/library/std/src/panicking.rs".toList
        line := 689
        column := 12 } },
   { margin := "   ".toList
     number := some 1
     symbol := "7: shop::order::\x7b\x7bclosure\x7d\x7d".toList
     place := some
      { indent := "             ".toList
        file := "C:/my shop/src/order: new.rs".toList
        line := 41
        column := 9 } },
   { margin := "      ".toList
     number := none
     symbol := "<shop::Order as shop::Parcel>::ship".toList
     place := none },
   { margin := "   ".toList
     number := some 2
     symbol := "std::panic::catch_unwind".toList
     place := none },
   { margin := "   ".toList
     number := some 3
     symbol := "shop::main".toList
     place := none }]

theorem frames_shopTrace :
    (shopTrace.flatMap Entry.lines).map String.ofList =
      ["   0: std::panicking::begin_panic",
        "             at /rustc/abc/library/std/src/panicking.rs:689:12",
        "   1: 7: shop::order::\x7b\x7bclosure\x7d\x7d",
        "             at C:/my shop/src/order: new.rs:41:9",
        "      <shop::Order as shop::Parcel>::ship",
        "   2: std::panic::catch_unwind",
        "   3: shop::main"] ∧
    frames (String.ofList ((shopTrace.flatMap Entry.lines).flatMap fun line => line ++ ['\n'])) =
      [⟨"my shop/src/order: new.rs", 41, "order"⟩, ⟨"", 0, "ship"⟩] := by
  refine ⟨by decide +kernel, ?_⟩
  rw [frames_printed (Text.consists_flatMap _) (by decide +kernel)]
  decide +kernel

end FunctionWorker.Panic
