import BG96Driver.Modem.Quoting

/-!
# The lines that the module reads

The module sees the line of a command and not its arguments. It reads them back if the strings are
plain and, in a command that is used as a format, have no `%`. From a line with other strings it
reads other arguments, or none.

* `readLine`: the arguments that the module reads from a line.
* `Format.Readable`: the formats that this is about.
* `printed_readLine`, `resent_readLine`: when the arguments are read back from what is sent.
* `verbatim_of_resent`: a string that is among those read from a command that is used as a format is
  its own string only if it has no `%`.
-/

namespace Bg96.Modem

open Printf (Arg Directive Prints percent)
open Scanf (bytes cr lf)
open StringCommand (Plain)

/-- The directives of a format string. -/
def directivesOf (text : String) : List Directive := (Printf.parse none (bytes text)).getD []

/-- What the module reads from a line: nothing if there is more than one line. A string ends at the
next quote. -/
def readLine (text : String) (line : List UInt8) : Option (List Arg) :=
  if cr ∈ line ∨ lf ∈ line then none else Printf.read quote (directivesOf text) line

/-- A string that a command carries as it is, also when the command is used as a format. -/
def Verbatim (s : List UInt8) : Prop := Plain s ∧ percent ∉ s

variable {text : String} {line s : List UInt8} {args : List Arg}

/-- The strings that the module reads are plain. -/
theorem readLine_plain (h : readLine text line = some args) (hs : .str s ∈ args) : Plain s := by
  obtain ⟨heol, hread⟩ := Option.ite_none_left_eq_some.mp h
  obtain ⟨hcr, hlf⟩ := not_or.mp heol
  refine ⟨Printf.quote_not_mem_of_read hread hs, fun hmem => hcr ?_, fun hmem => hlf ?_⟩
  · exact Printf.mem_of_read hread hs hmem
  · exact Printf.mem_of_read hread hs hmem

namespace Format

variable {f : Format}

/-- The arguments, as they are printed. -/
def printfArgs (f : Format) : List Arg := f.args.map Value.arg

/-- The format has the conversions of its arguments, and what was printed with it can be read. -/
structure Readable (f : Format) : Prop where
  parse : Printf.parse none (bytes f.text) = some (directivesOf f.text)
  conversions : Printf.conversions (directivesOf f.text) = f.printfArgs.map Arg.conversion
  layout : Layout (directivesOf f.text)
  eol : .lit cr ∉ directivesOf f.text ∧ .lit lf ∉ directivesOf f.text

theorem Readable.exists_printed (hf : f.Readable) :
    ∃ line, Prints (directivesOf f.text) f.printfArgs line ∧ f.printed = some line := by
  obtain ⟨line, h⟩ := Printf.exists_prints hf.conversions
  exact ⟨line, h, Printf.printf_eq hf.parse h⟩

/-- There is one line if no string has a line end. -/
theorem Readable.eol_iff (hf : f.Readable) (h : Prints (directivesOf f.text) args line) :
    ¬ (cr ∈ line ∨ lf ∈ line) ↔ ∀ s, .str s ∈ args → cr ∉ s ∧ lf ∉ s := by
  have hnot {b : UInt8} (hlit : .lit b ∉ directivesOf f.text)
      (hdigit : Scanf.isDigit 10 b = false) (hminus : b ≠ Printf.minus) :
      b ∉ line ↔ ∀ s, .str s ∈ args → b ∉ s := by
    constructor
    · exact fun hmem s hs hb => hmem (h.mem_line hs hb)
    · intro hargs hmem
      rcases h.mem hmem with hds | ⟨n, hn⟩ | ⟨s, hs, hb⟩
      · exact hlit hds
      · exact Printf.not_mem_decimal hdigit hminus n hn
      · exact hargs s hs hb
  rw [not_or, hnot hf.eol.1 (by decide) (by decide), hnot hf.eol.2 (by decide) (by decide)]
  exact ⟨fun h s hs => ⟨h.1 s hs, h.2 s hs⟩, fun h => ⟨fun s hs => (h s hs).1,
    fun s hs => (h s hs).2⟩⟩

/-- What `send` has printed is read back if and only if the strings are plain. -/
theorem Readable.printed_readLine (hf : f.Readable) :
    f.printed.bind (readLine f.text) = some f.printfArgs ↔
      ∀ s, .str s ∈ f.printfArgs → Plain s := by
  obtain ⟨line, h, hline⟩ := hf.exists_printed
  rw [hline, Option.bind_some, readLine, Option.ite_none_left_eq_some, hf.eol_iff h,
    Printf.read_iff h hf.layout.delimited]
  exact ⟨fun h s hs => ⟨h.2 s hs, h.1 s hs⟩,
    fun h => ⟨fun s hs => (h s hs).2, fun s hs => (h s hs).1⟩⟩

/-- What `sprintf` has printed is read back if and only if the strings are verbatim. -/
theorem Readable.resent_readLine (hf : f.Readable) :
    f.resent.bind (readLine f.text) = some f.printfArgs ↔
      ∀ s, .str s ∈ f.printfArgs → Verbatim s := by
  obtain ⟨line, h, hline⟩ := hf.exists_printed
  have hread := Printf.read_unescapes_iff h hf.layout.percent_not_mem hf.layout.delimited
    (by decide)
  rw [resent, hline, Option.bind_some]
  constructor
  · intro hargs s hs
    obtain ⟨t, ht, hreadLine⟩ := Option.bind_eq_some_iff.mp hargs
    have hplain := readLine_plain hreadLine hs
    exact ⟨hplain, (hread.mp ⟨t, ht, (Option.ite_none_left_eq_some.mp hreadLine).2⟩ s hs).2⟩
  · intro hargs
    have hself := Printf.printf_self (h.percent_not_mem hf.layout.percent_not_mem fun s hs =>
      (hargs s hs).2)
    rw [hself, Option.bind_some, readLine, Option.ite_none_left_eq_some, hf.eol_iff h,
      Printf.read_iff h hf.layout.delimited]
    exact ⟨fun s hs => (hargs s hs).1.2, fun s hs => (hargs s hs).1.1⟩

/-- From a command with plain strings that is used as a format, other arguments are read. -/
theorem Readable.exists_readLine (hf : f.Readable) (hargs : ∀ s, .str s ∈ f.printfArgs → Plain s)
    (h : f.resent = some line) : ∃ args, List.Forall₂ Printf.UnescapesArg f.printfArgs args ∧
      readLine f.text line = some args := by
  obtain ⟨printed, hprints, hprinted⟩ := hf.exists_printed
  rw [resent, hprinted, Option.bind_some] at h
  obtain ⟨args, hforall, hprints', hread⟩ := hprints.read_unescapes h hf.layout.percent_not_mem
    hf.layout.delimited (by decide) fun s hs => (hargs s hs).1
  refine ⟨args, hforall, Option.ite_none_left_eq_some.mpr ⟨?_, hread⟩⟩
  refine (hf.eol_iff hprints').mpr fun t ht => ?_
  obtain ⟨s, hs, hst⟩ := Printf.mem_of_unescapesArg hforall ht
  exact ⟨fun hb => (hargs s hs).2.1 (hst.mem hb), fun hb => (hargs s hs).2.2 (hst.mem hb)⟩

/-- If the only string of a command that is used as a format is read back, it is verbatim. -/
theorem Readable.verbatim_of_resent (hf : f.Readable) (hs : ∀ t, .str t ∈ f.printfArgs → t = s)
    (h : f.resent.bind (readLine f.text) = some args) (hmem : .str s ∈ args) : Verbatim s := by
  obtain ⟨line, hprints, hline⟩ := hf.exists_printed
  rw [resent, hline, Option.bind_some] at h
  obtain ⟨t, ht, hreadLine⟩ := Option.bind_eq_some_iff.mp h
  have hplain := readLine_plain hreadLine hmem
  obtain ⟨args', hforall, -, hread⟩ := hprints.read_unescapes ht hf.layout.percent_not_mem
    hf.layout.delimited (by decide) fun t ht => hs t ht ▸ hplain.1
  obtain rfl : args = args' :=
    Option.some.inj ((Option.ite_none_left_eq_some.mp hreadLine).2.symm.trans hread)
  obtain ⟨u, hu, hunescapes⟩ := Printf.mem_of_unescapesArg hforall hmem
  rw [hs u hu] at hunescapes
  exact ⟨hplain, hunescapes.percent_not_mem rfl⟩

end Format

end Bg96.Modem
