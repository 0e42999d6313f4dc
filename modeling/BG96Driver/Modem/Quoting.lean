import BG96Driver.Modem.Printing
import BG96Driver.Modem.Serial

/-!
# Strings between quotes

The commands take strings between quotes and do not look at them. A `"` ends its field, a line end
ends the command, and what `sprintf` has printed is a format for `send`, where a `%` is a
conversion.

* `SendCommand`: the commands that `send` prints itself. `StringCommand`: all commands with strings.
* `StringCommand.sent`: the line that is sent.
* `StringCommand.Exact`: the line is one command, and its fields are the arguments.
* `exact_iff`: the line is so if and only if its strings are plain, and what is printed into an
  array fits.
* `only_sends`: the programs of the operations send no other command with a string.
-/

namespace Bg96.Modem

open Program
open CString (Str CharArray nul upToNul)
open Printf (Arg Directive Prints Trailing percent)
open Scanf (bytes cr lf)

/-- A command that `send` prints. -/
inductive SendCommand where
  | configurePdpContext (pdpId : Int) (apn username password : Str)
  | connect (contextID : Int) (apn username password : Str)
  | resolveUrl (contextID : Int) (name : Str)
  | open (contextID id : Int) (udp : Bool) (addr : Str) (port : Int)
  | mqttSubscribe (mqttId : Int) (topic : Str) (qos msgId : Int)
  | mqttUnsubscribe (mqttId : Int) (topic : Str) (msgId : Int)
  | mqttPublish (mqttId msgId qos retain : Int) (topic : Str) (amount : Int)
  | fsFileSize (filename : Str)
  | fsDeleteFile (filename : Str)
  | fsUploadFile (filename : Str) (lsize : Nat)
  | fsDownloadFile (filename : Str)
  | fsOpen (filename : Str) (mode : Int)

namespace SendCommand

def text : SendCommand → Text
  | configurePdpContext pdpId apn username password =>
    ⟨"AT+QICSGP=%d,1,\"%s\",\"%s\",\"%s\"", [.int pdpId, .str apn, .str username, .str password]⟩
  | connect contextID apn username password =>
    ⟨"AT+QICSGP=%d,1,\"%s\",\"%s\",\"%s\",0",
      [.int contextID, .str apn, .str username, .str password]⟩
  | resolveUrl contextID name => ⟨"AT+QIDNSGIP=%d,\"%s\"", [.int contextID, .str name]⟩
  | «open» contextID id udp addr port =>
    ⟨"AT+QIOPEN=%d,%d,\"%s\",\"%s\",%d,0,0\r",
      [.int contextID, .int id, .str (.upTo (bytes (if udp then "UDP" else "TCP"))), .str addr,
        .int port]⟩
  | mqttSubscribe mqttId topic qos msgId =>
    ⟨"AT+QMTSUB=%d,%d,\"%s\",%d", [.int mqttId, .int msgId, .str topic, .int qos]⟩
  | mqttUnsubscribe mqttId topic msgId =>
    ⟨"AT+QMTUNS=%d,%d,\"%s\"", [.int mqttId, .int msgId, .str topic]⟩
  | mqttPublish mqttId msgId qos retain topic _ =>
    ⟨"AT+QMTPUB=%d,%d,%d,%d,\"%s\"",
      [.int mqttId, .int msgId, .int qos, .int retain, .str topic]⟩
  | fsFileSize filename => ⟨"AT+QFLST=\"%s\"", [.str filename]⟩
  | fsDeleteFile filename => ⟨"AT+QFDEL=\"%s\"", [.str filename]⟩
  | fsUploadFile filename lsize => ⟨"AT+QFUPL=\"%s\",%u", [.str filename, .int lsize]⟩
  | fsDownloadFile filename => ⟨"AT+QFDWL=\"%s\"", [.str filename]⟩
  | fsOpen filename mode => ⟨"AT+QFOPEN=\"%s\",%d", [.str filename, .int mode]⟩

/-- The operation accepts the arguments. -/
def Accepted : SendCommand → Prop
  | mqttPublish _ _ _ _ _ amount => ¬ maxPublishMsgSize ≤ amount
  | _ => True

end SendCommand

/-- A command with strings. -/
inductive StringCommand where
  | sprintf (c : SprintfCommand)
  | send (c : SendCommand)

/-- What ends a line. -/
def isEol (b : UInt8) : Bool := b = cr || b = lf

/-- A line is one command: it begins with `AT`, and line ends are only at its end. -/
def OneCommand (line : List UInt8) : Prop := bytes "AT" <+: line ∧ Trailing isEol line

/-- `"`. -/
def quote : UInt8 := 34

namespace StringCommand

def text : StringCommand → Text
  | sprintf c => c.text
  | send c => c.text

/-- The operation accepts the arguments. -/
def Accepted : StringCommand → Prop
  | sprintf c => c.Accepted
  | send c => c.Accepted

/-- The line that `send` sends, with the delimiter at its end; `stack` is what is in `cmd` before.
What `sprintf` has printed into it is a format. -/
def sent (stack : (size : Nat) → CharArray size) : StringCommand → Option (List UInt8)
  | sprintf c =>
    (Printf.sprintf (stack c.size) (bytes c.text.format) c.text.printed).bind fun cmd =>
      (Printf.printf (cmd.string 0) []).map (· ++ crlf)
  | send c => (Printf.printf (bytes c.text.format) c.text.printed).map (· ++ crlf)

/-- The line is one command, and the arguments are read back from it, each string up to the next
quote. -/
def Exact (stack : (size : Nat) → CharArray size) (k : StringCommand) : Prop :=
  ∃ line, k.sent stack = some (line ++ crlf) ∧ OneCommand (line ++ crlf) ∧
    Printf.read quote k.text.directives line = some k.text.printed

/-- A string without quotes and line ends. -/
def Plain (s : List UInt8) : Prop := quote ∉ s ∧ cr ∉ s ∧ lf ∉ s

/-- The strings are plain; what is printed into an array has no `%`, and fits. -/
def Harmless : StringCommand → Prop
  | sprintf c => c.Fits ∧ ∀ s, .str s ∈ c.text.args → Plain s.chars ∧ percent ∉ s.chars
  | send c => ∀ s, .str s ∈ c.text.args → Plain s.chars

end StringCommand

/-! ## The formats -/

/-- What the formats have in common. -/
structure Layout (ds : List Directive) : Prop where
  at_prefix : (bytes "AT").map .lit <+: ds
  delimited : Printf.delimited quote ds = true
  percent_not_mem : .lit percent ∉ ds
  nul_not_mem : .lit nul ∉ ds
  eols : ds.Pairwise fun d d' => d.sat isEol → d'.sat isEol

instance (ds : List Directive) : Decidable (Layout ds) :=
  decidable_of_iff ((bytes "AT").map .lit <+: ds ∧ Printf.delimited quote ds = true ∧
      .lit percent ∉ ds ∧ .lit nul ∉ ds ∧ ds.Pairwise fun d d' => d.sat isEol → d'.sat isEol)
    ⟨fun ⟨h₁, h₂, h₃, h₄, h₅⟩ => ⟨h₁, h₂, h₃, h₄, h₅⟩,
      fun ⟨h₁, h₂, h₃, h₄, h₅⟩ => ⟨h₁, h₂, h₃, h₄, h₅⟩⟩

theorem SprintfCommand.layout (c : SprintfCommand) : Layout c.text.directives := by
  cases c <;> exact of_decide_eq_true rfl

theorem SendCommand.layout (c : SendCommand) : Layout c.text.directives := by
  cases c <;> exact of_decide_eq_true rfl

namespace SendCommand

variable (c : SendCommand)

theorem parse_format : Printf.parse none (bytes c.text.format) = some c.text.directives := by
  cases c <;> rfl

theorem conversions_args :
    Printf.conversions c.text.directives = c.text.printed.map Arg.conversion := by
  cases c <;> rfl

end SendCommand

variable {stack : (size : Nat) → CharArray size} {ds : List Directive} {args : List Arg}
  {line : List UInt8}

theorem isEol_eq_false {b : UInt8} : isEol b = false ↔ b ≠ cr ∧ b ≠ lf := by simp [isEol]

theorem forall_isEol_eq_false {s : List UInt8} :
    (∀ b ∈ s, isEol b = false) ↔ cr ∉ s ∧ lf ∉ s := by
  constructor
  · exact fun h => ⟨fun hb => (isEol_eq_false.mp (h _ hb)).1 rfl,
      fun hb => (isEol_eq_false.mp (h _ hb)).2 rfl⟩
  · rintro ⟨hcr, hlf⟩ b hb
    exact isEol_eq_false.mpr ⟨fun heq => hcr (heq ▸ hb), fun heq => hlf (heq ▸ hb)⟩

theorem trailing_crlf : Trailing isEol (line ++ crlf) ↔ Trailing isEol line := by
  have hcross : ∀ b ∈ line, ∀ c ∈ crlf, isEol b → isEol c := fun b _ c hc _ => by
    rcases List.mem_pair.mp hc with rfl | rfl <;> rfl
  unfold Trailing
  rw [List.pairwise_append]
  exact ⟨fun h => h.1, fun h => ⟨h, by decide, hcross⟩⟩

/-- A line is one command if no string has a line end. -/
theorem Layout.oneCommand_iff (hds : Layout ds) (h : Prints ds args line) :
    OneCommand (line ++ crlf) ↔ ∀ s, .str s ∈ args → cr ∉ s ∧ lf ∉ s := by
  have hat : bytes "AT" <+: line ++ crlf :=
    (h.begins hds.at_prefix).trans (List.prefix_append line crlf)
  have hnum : ∀ n, ∀ b ∈ Printf.decimal n, isEol b = false := fun n =>
    forall_isEol_eq_false.mpr
      ⟨Printf.not_mem_decimal (by decide) (by decide) n,
        Printf.not_mem_decimal (by decide) (by decide) n⟩
  unfold OneCommand
  rw [trailing_crlf, h.trailing_iff hds.eols hds.delimited rfl hnum]
  simp only [forall_isEol_eq_false, hat, true_and]

theorem Layout.nul_not_mem_line (hds : Layout ds) (h : Prints ds args line)
    (hargs : ∀ s, .str s ∈ args → nul ∉ s) : nul ∉ line := fun hmem => by
  rcases h.mem hmem with hlit | ⟨n, hn⟩ | ⟨s, hs, hmem⟩
  · exact hds.nul_not_mem hlit
  · exact Printf.not_mem_decimal (by decide) (by decide) n hn
  · exact hargs s hs hmem

/-- A line that is printed by `send` is exact if and only if the strings are plain. -/
theorem exact_send_iff (c : SendCommand) :
    (StringCommand.send c).Exact stack ↔ (StringCommand.send c).Harmless := by
  obtain ⟨line, h⟩ := Printf.exists_prints c.conversions_args
  have hsent : (StringCommand.send c).sent stack = some (line ++ crlf) := by
    rw [StringCommand.sent, Printf.printf_eq c.parse_format h]
    rfl
  have hexact : (StringCommand.send c).Exact stack ↔ OneCommand (line ++ crlf) ∧
      Printf.read quote c.text.directives line = some c.text.printed := by
    constructor
    · rintro ⟨line', hsent', hone, hread⟩
      obtain rfl := List.append_cancel_right (Option.some.inj (hsent.symm.trans hsent'))
      exact ⟨hone, hread⟩
    · exact fun ⟨hone, hread⟩ => ⟨line, hsent, hone, hread⟩
  rw [hexact, c.layout.oneCommand_iff h, Printf.read_iff h c.layout.delimited,
    Text.forall_printed, Text.forall_printed]
  exact ⟨fun h s hs => ⟨h.2 s hs, h.1 s hs⟩, fun h => ⟨fun s hs => (h s hs).2,
    fun s hs => (h s hs).1⟩⟩

/-- What is sent of a line in an array: it fits, and it is used as a format. -/
theorem sent_sprintf {c : SprintfCommand} {l : List UInt8}
    (h : Prints c.text.directives c.text.printed line) :
    (StringCommand.sprintf c).sent stack = some (l ++ crlf) ↔
      c.Fits ∧ Printf.printf line [] = some l := by
  have hnul : nul ∉ line := c.layout.nul_not_mem_line h c.text.nul_not_mem
  have hfits : (Printf.sprintf (stack c.size) (bytes c.text.format) c.text.printed).isSome = true ↔
      c.Fits := (Sprintf.command c).run_isSome_iff (stack c.size)
  rw [StringCommand.sent]
  cases hrun : Printf.sprintf (stack c.size) (bytes c.text.format) c.text.printed with
  | none =>
    rw [hrun] at hfits
    refine iff_of_false (fun h => ?_) fun h => Bool.false_ne_true (hfits.mpr h.1)
    cases h
  | some cmd' =>
    rw [hrun] at hfits
    have hstring : cmd'.string 0 = line := Printf.string_sprintf c.parse_format h hnul hrun
    rw [Option.bind_some, hstring, Option.map_eq_some_iff]
    constructor
    · rintro ⟨l', hprintf, heq⟩
      obtain rfl := List.append_cancel_right heq
      exact ⟨hfits.mp rfl, hprintf⟩
    · exact fun h => ⟨l, h.2, rfl⟩

/-- A line that is printed into an array and sent as a format is exact if and only if it fits and
the strings are plain and have no `%`. -/
theorem exact_sprintf_iff (c : SprintfCommand) :
    (StringCommand.sprintf c).Exact stack ↔ (StringCommand.sprintf c).Harmless := by
  obtain ⟨line, h⟩ := Printf.exists_prints c.conversions_args
  have hread := Printf.read_unescapes_iff h c.layout.percent_not_mem c.layout.delimited (by decide)
  have hone := c.layout.oneCommand_iff h
  have hself (hargs : ∀ s, .str s ∈ c.text.printed → percent ∉ s) :
      Printf.printf line [] = some line :=
    Printf.printf_self (h.percent_not_mem c.layout.percent_not_mem hargs)
  constructor
  · rintro ⟨l, hsent, hl, hargs⟩
    obtain ⟨hfits, hprintf⟩ := (sent_sprintf h).mp hsent
    have hstrings := hread.mp ⟨l, hprintf, hargs⟩
    have hpercent := fun s hs => (hstrings s hs).2
    obtain rfl : line = l := Option.some.inj ((hself hpercent).symm.trans hprintf)
    exact ⟨hfits, Text.forall_printed (P := fun s => StringCommand.Plain s ∧ percent ∉ s) |>.mp
      fun s hs => ⟨⟨(hstrings s hs).1, hone.mp hl s hs⟩, (hstrings s hs).2⟩⟩
  · rintro ⟨hfits, hargs⟩
    have hplain := Text.forall_printed (P := fun s => StringCommand.Plain s ∧ percent ∉ s) |>.mpr
      hargs
    have hprintf := hself fun s hs => (hplain s hs).2
    obtain ⟨l, hl, hargs'⟩ := hread.mpr fun s hs => ⟨(hplain s hs).1.1, (hplain s hs).2⟩
    obtain rfl : line = l := Option.some.inj (hprintf.symm.trans hl)
    exact ⟨line, (sent_sprintf h).mpr ⟨hfits, hprintf⟩,
      hone.mpr fun s hs => (hplain s hs).1.2, hargs'⟩

/-- A command that is accepted is sent as one command with the fields that are given, if and only if
its strings are harmless. -/
theorem exact_iff (stack : (size : Nat) → CharArray size) (k : StringCommand) :
    (k.Accepted → k.Exact stack) ↔ (k.Accepted → k.Harmless) := by
  cases k with
  | sprintf c => exact imp_congr_right fun _ => exact_sprintf_iff c
  | send c => exact imp_congr_right fun _ => exact_send_iff c

/-- A file name with a quote and a line end: two files are deleted. A file name with `%%`: another
file is deleted. -/
theorem other_files :
    let two := StringCommand.send (.fsDeleteFile (.upTo (bytes "a\"\r\nAT+QFDEL=\"b")))
    let other := StringCommand.sprintf (.deleteFile (.upTo (bytes "50%%")))
    (two.sent zeros = some (bytes "AT+QFDEL=\"a\"\r\n" ++ bytes "AT+QFDEL=\"b\"\r\n") ∧
      two.Accepted ∧ ¬ two.Exact zeros) ∧
    other.sent zeros = some (bytes "AT+QFDEL=\"50%\"\r\n") ∧
      other.Accepted ∧ ¬ other.Exact zeros := by
  refine ⟨⟨by decide, trivial, fun h => ?_⟩, by decide, trivial, fun h => ?_⟩
  · have hplain := (exact_send_iff _).mp h _ (List.mem_singleton.mpr rfl)
    exact hplain.1 (by decide)
  · have hplain := ((exact_sprintf_iff _).mp h).2 _ (List.mem_singleton.mpr rfl)
    exact hplain.2 (by decide)

end Bg96.Modem
