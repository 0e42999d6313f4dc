import BG96Driver.Modem.Exchange
import BG96Driver.Modem.Files

/-!
# The bytes of an upload

The loops of `fs_upload_file` and `send_file` count in a `uint16_t` up to a `size_t`. From 65536
bytes on the counter wraps before it gets there, and the loop reads on beyond the data.

* `putsOf`: the bytes put on the line in a trace. `Connected`: the module has told to go on.
* `traces_putBytes`, `not_traces_putBytes`: what the loop puts, and when it does not end.
* `traces_upload`: the part that both functions share.
* `uploads_iff`: they end with exactly the data on the line if and only if the counter does not
  wrap.
-/

namespace Bg96.Modem

open Program

variable {α : Type} {l : List Exchange} {data content : List UInt8} {filename : String} {a : α}

/-- The byte that a call puts on the line. -/
def Call.puts : Call → Option UInt8
  | .putc c => some c
  | _ => none

/-- The bytes put on the line in a trace. -/
def putsOf (l : List Exchange) : List UInt8 := l.filterMap fun e => e.1.puts

theorem putsOf_append (l l' : List Exchange) : putsOf (l ++ l') = putsOf l ++ putsOf l' :=
  List.filterMap_append

/-- Nothing is put by other calls. -/
theorem putsOf_eq_nil (h : ∀ e ∈ l, e.1.puts = none) : putsOf l = [] :=
  List.filterMap_eq_nil_iff.mpr h

theorem putsOf_spoken (l : List Exchange) : putsOf (spoken l) = putsOf l := by
  induction l with
  | nil => rfl
  | cons e l ih =>
    obtain ⟨c, r⟩ := e
    cases c <;> simpa [putsOf, spoken, Call.Spoken, Call.puts] using ih

def connectFormat : Format := ⟨"CONNECT", []⟩

/-- The module has told to go on with the data. -/
def Connected (l : List Exchange) : Prop := ∃ vs, ⟨.recv connectFormat, some vs⟩ ∈ l

theorem connected_append {l l' : List Exchange} :
    Connected (l ++ l') ↔ Connected l ∨ Connected l' := by
  simp only [Connected, List.mem_append, exists_or]

theorem connected_spoken : Connected (spoken l) ↔ Connected l := by
  simp [Connected, spoken, Call.Spoken]

/-- A call that puts nothing and does not wait for `CONNECT`. -/
def Call.Apart (c : Call) : Prop := c.puts = none ∧ c ≠ .recv connectFormat

theorem not_connected (h : ∀ e ∈ l, e.1.Apart) : ¬ Connected l := by
  rintro ⟨vs, hmem⟩
  exact (h _ hmem).2 rfl

/-! ## The loop -/

/-- The loop puts the data, if the counter gets to their end. -/
theorem traces_putBytes {bits size i : Nat} {o : Option Unit}
    (h : Traces (putBytes bits size i data) l o) (hsize : i + data.length = size)
    (hbits : size < 2 ^ bits) : putsOf l = data := by
  induction data generalizing i l with
  | nil =>
    rw [putBytes, if_neg (by simp at hsize; omega)] at h
    obtain ⟨rfl, -⟩ := traces_ret.mp h
    rfl
  | cons c data ih =>
    rw [List.length_cons] at hsize
    rw [putBytes, if_pos (by omega), Nat.mod_eq_of_lt (by omega)] at h
    obtain ⟨r, l, rfl, hloop⟩ := traces_call.mp h
    exact congrArg (List.cons c) (ih hloop (by omega))

/-- A counter that wraps does not get to the end. -/
theorem not_traces_putBytes {bits size i : Nat} (hi : i < 2 ^ bits) (hbits : 2 ^ bits ≤ size) :
    ¬ Traces (putBytes bits size i data) l (some ()) := by
  induction data generalizing i l with
  | nil =>
    intro h
    rw [putBytes, if_pos (by omega)] at h
    cases (traces_stop.mp h).2
  | cons c data ih =>
    intro h
    rw [putBytes, if_pos (by omega)] at h
    obtain ⟨r, l, rfl, hloop⟩ := traces_call.mp h
    exact ih (Nat.mod_lt _ (by omega)) hloop

/-! ## The functions -/

/-- `connectData` succeeds if and only if the module tells to go on. -/
theorem traces_connectData {cmd : Format} {ok : Bool} (h : Traces (connectData cmd) l (some ok)) :
    (ok = true ↔ Connected l) ∧ putsOf l = [] := by
  obtain ⟨vs, hpeek, rfl⟩ := traces_map_some.mp h
  have hcase := traces_peek hpeek
  rw [← connected_spoken, ← putsOf_spoken]
  generalize spoken l = said at hcase
  cases hcase with
  | unsent => simp [Connected, putsOf, Call.puts]
  | sent vs => cases vs <;> simp [Connected, putsOf, Call.puts, connectFormat]

/-- An upload that returns. -/
theorem traces_upload {cmd : Format} {ms : Int} {size : Nat} {f : At α} {b : α}
    (hf : Only False Call.Apart f) (hsize : data.length = size)
    (h : Traces (locked (timed ms (do
      if ← connectData cmd then
        putBytes 16 size 0 data
        f
      else return b))) l (some a)) (hconnected : Connected l) :
    size < 2 ^ 16 ∧ putsOf l = data := by
  obtain ⟨l, hspoken, hbody⟩ := traces_locked_timed h
  rw [← putsOf_spoken, hspoken, putsOf_spoken]
  rw [← connected_spoken, hspoken, connected_spoken] at hconnected
  obtain ⟨ok, l₁, l₂, rfl, h₁, h₂⟩ := traces_bind_some.mp hbody
  obtain ⟨hok, hputs⟩ := traces_connectData h₁
  rw [putsOf_append, hputs, List.nil_append]
  cases ok with
  | false =>
    obtain ⟨rfl, -⟩ := traces_ret.mp h₂
    rw [List.append_nil] at hconnected
    cases hok.mpr hconnected
  | true =>
    obtain ⟨_, l₃, l₄, rfl, h₃, h₄⟩ := traces_bind_some.mp h₂
    have hlt : size < 2 ^ 16 :=
      Nat.not_le.mp fun hle => not_traces_putBytes (by decide) hle h₃
    have hrest := putsOf_eq_nil fun e he => ((hf.traces h₄).1 e he).1
    refine ⟨hlt, ?_⟩
    rw [putsOf_append, hrest, List.append_nil]
    exact traces_putBytes h₃ (by omega) hlt

/-- An upload whose counter does not wrap ends. -/
theorem upload_ends {cmd : Format} {ms : Int} {size : Nat} {f : At α} {b : α} {o : Option α}
    (hf : Only False Call.Apart f) (hsize : data.length = size) (hbits : size < 2 ^ 16)
    (h : Traces (locked (timed ms (do
      if ← connectData cmd then
        putBytes 16 size 0 data
        f
      else return b))) l o) : o ≠ none := by
  have hloop : Only False (fun _ => True) (putBytes 16 size 0 data) :=
    only_putBytes (fun _ => trivial) data 0 fun h => by omega
  refine fun ho => Only.traces (P := fun _ => True) ?_ h |>.2 ho
  refine only_locked trivial trivial (only_timed (fun _ => trivial) ?_)
  refine (only_peek trivial trivial).map.bind fun ok => only_ite.mpr ⟨fun _ => ?_, fun _ => trivial⟩
  exact hloop.bind fun _ => hf.mono id fun _ _ => trivial

/-- After the data, the module reports what it has got. -/
theorem apart_report {f : List Value → At α} {b : α} (hf : ∀ vs, Only False Call.Apart (f vs)) :
    Only False Call.Apart (do
      Parser.setTimeout bg96Wait1s
      match ← Parser.recv qfupl with
      | some vs => f vs
      | none => return b) := by
  refine ⟨⟨rfl, nofun⟩, fun _ => ⟨⟨rfl, by simp [qfupl, connectFormat]⟩, fun vs => ?_⟩⟩
  cases vs with
  | none => trivial
  | some vs => exact hf vs

theorem apart_recvOk : Only False Call.Apart recvOk :=
  only_recvOk ⟨rfl, by simp [okFormat, connectFormat]⟩

/-- `fs_upload_file`. -/
theorem fsUploadFile_iff {o : Option (Int × Int)}
    (h : Traces (fsUploadFile filename data data.length) l o) (hconnected : Connected l) :
    o ≠ none ∧ putsOf l = data ↔ data.length < 2 ^ 16 := by
  have hreport := apart_report (b := (nsapiErrorDeviceError, (data.length : Int))) fun vs =>
    apart_recvOk.map (f := fun _ => (nsapiErrorOk, intAt vs 0))
  constructor
  · rintro ⟨ho, -⟩
    obtain ⟨a, rfl⟩ := Option.ne_none_iff_exists'.mp ho
    exact (traces_upload hreport rfl h hconnected).1
  · intro hlt
    have ho := upload_ends hreport rfl hlt h
    obtain ⟨a, rfl⟩ := Option.ne_none_iff_exists'.mp ho
    exact ⟨ho, (traces_upload hreport rfl h hconnected).2⟩

/-- What comes before an upload. A store beyond an array comes before `CONNECT`. -/
theorem traces_before {β : Type} {p : At β} {g : β → At α} {o : Option α}
    (hp : Only True Call.Apart p) (h : Traces (p >>= g) l o) (hconnected : Connected l) :
    ∃ b l', Traces (g b) l' o ∧ Connected l' ∧ putsOf l = putsOf l' := by
  obtain ⟨b, l₁, l₂, rfl, h₁, h₂⟩ | ⟨hstop, -⟩ := traces_bind.mp h
  · have hcalls := (hp.traces h₁).1
    refine ⟨b, l₂, h₂, (connected_append.mp hconnected).resolve_left (not_connected hcalls), ?_⟩
    rw [putsOf_append, putsOf_eq_nil fun e he => (hcalls e he).1, List.nil_append]
  · exact absurd hconnected (not_connected (hp.traces hstop).1)

theorem apart_sprintfCommand {size : Nat} {f : Format} :
    Only True Call.Apart (sprintfCommand size f) := only_sprintfCommand fun _ => trivial

/-- The part of `send_file` that uploads the file. -/
theorem uploadFile_iff {o : Option Int} (h : Traces (uploadFile content filename) l o)
    (hconnected : Connected l) :
    o ≠ none ∧ putsOf l = content ++ [0] ↔ content.length + 1 < 2 ^ 16 := by
  obtain ⟨_, l', h, hconnected, hputs⟩ := traces_before apart_sprintfCommand h hconnected
  rw [hputs]
  have hreport := apart_report (b := (0 : Int)) fun _ => apart_recvOk.map (f := fun _ => (1 : Int))
  have hsize : (content ++ [0]).length = content.length + 1 := List.length_append
  constructor
  · rintro ⟨ho, -⟩
    obtain ⟨a, rfl⟩ := Option.ne_none_iff_exists'.mp ho
    exact (traces_upload hreport hsize h hconnected).1
  · intro hlt
    have ho := upload_ends hreport hsize hlt h
    obtain ⟨a, rfl⟩ := Option.ne_none_iff_exists'.mp ho
    exact ⟨ho, (traces_upload hreport hsize h hconnected).2⟩

theorem apart_fileExists : Only True Call.Apart (fileExists filename) := by
  have hrecv : Call.Apart (.recv okFormat) := ⟨rfl, by simp [okFormat, connectFormat]⟩
  have hset (ms : Int) : Call.Apart (.setTimeout ms) := ⟨rfl, nofun⟩
  refine apart_sprintfCommand.bind fun _ =>
    (only_locked ⟨rfl, nofun⟩ ⟨rfl, nofun⟩ (only_timed hset ?_)).map
  exact only_queryInto trivial ⟨rfl, nofun⟩ ⟨rfl, by simp [connectFormat]⟩ hrecv

theorem apart_deleteFile : Only True Call.Apart (deleteFile filename) :=
  apart_sprintfCommand.bind fun _ => only_locked ⟨rfl, nofun⟩ ⟨rfl, nofun⟩
    (only_command ⟨rfl, nofun⟩ ⟨rfl, by simp [okFormat, connectFormat]⟩)

theorem not_connected_nil : ¬ Connected [] := not_connected (List.forall_mem_nil _)

/-- `send_file` with whether it keeps the file that is there. -/
theorem sendFileKept_iff {overrideok : Bool} {o : Option (Bool × Int)}
    (h : Traces (sendFileKept content filename overrideok) l o) (hconnected : Connected l) :
    o ≠ none ∧ putsOf l = content ++ [0] ↔ content.length + 1 < 2 ^ 16 := by
  have hupload {l : List Exchange} {o : Option (Bool × Int)}
      (h : Traces (uploadFile content filename >>= fun r => .ret (false, r)) l o)
      (hconnected : Connected l) :
      o ≠ none ∧ putsOf l = content ++ [0] ↔ content.length + 1 < 2 ^ 16 := by
    obtain ⟨o', hup, rfl⟩ := traces_map.mp h
    rw [← uploadFile_iff hup hconnected, ne_eq, Option.map_eq_none_iff]
  obtain ⟨found, l₁, hfound, hconnected, hputs⟩ := traces_before apart_fileExists h hconnected
  rw [hputs]
  cases found with
  | false => exact hupload hfound hconnected
  | true =>
    cases overrideok with
    | false =>
      obtain ⟨rfl, -⟩ := traces_ret.mp hfound
      exact absurd hconnected not_connected_nil
    | true =>
      obtain ⟨deleted, l₂, hdeleted, hconnected, hputs⟩ :=
        traces_before apart_deleteFile hfound hconnected
      rw [hputs]
      cases deleted with
      | true => exact hupload hdeleted hconnected
      | false =>
        obtain ⟨rfl, -⟩ := traces_ret.mp hdeleted
        exact absurd hconnected not_connected_nil

/-- **Uploads.** After `CONNECT`, an upload ends with exactly the data on the line if and only if
its size is below `2 ^ 16`; the file of `send_file` is the string with its final zero. -/
theorem uploads_iff (filename : String) (data : List UInt8) (l : List Exchange)
    (hconnected : Connected l) :
    (∀ o, Traces (fsUploadFile filename data data.length) l o →
      (o ≠ none ∧ putsOf l = data ↔ data.length < 2 ^ 16)) ∧
    ∀ overrideok o, Traces (sendFile data filename overrideok) l o →
      (o ≠ none ∧ putsOf l = data ++ [0] ↔ data.length + 1 < 2 ^ 16) := by
  refine ⟨fun _ h => fsUploadFile_iff h hconnected, ?_⟩
  intro overrideok o h
  obtain ⟨o', hkept, rfl⟩ := traces_map.mp h
  rw [← sendFileKept_iff hkept hconnected, ne_eq, Option.map_eq_none_iff]

/-- What is said up to `CONNECT` when `data` are uploaded. -/
def connecting (filename : String) (data : List UInt8) : List Exchange :=
  [⟨.lock, ()⟩, ⟨.setTimeout bg96Wait1s, ()⟩,
    ⟨.send ⟨"AT+QFUPL=\"%s\",%u", [.str filename, .int data.length]⟩, true⟩,
    ⟨.recv connectFormat, some []⟩]

theorem connected_connecting (l : List Exchange) : Connected (connecting filename data ++ l) :=
  ⟨[], by simp [connecting]⟩

/-- Three bytes are uploaded. -/
def shortUpload : List Exchange :=
  connecting "a" [65, 66, 67] ++
    [⟨.putc 65, (1 : Int)⟩, ⟨.putc 66, (1 : Int)⟩, ⟨.putc 67, (1 : Int)⟩,
      ⟨.setTimeout bg96Wait1s, ()⟩, ⟨.recv qfupl, some [.int 3, .int 0]⟩, ⟨.recv okFormat, some []⟩,
      ⟨.setTimeout atTimeout, ()⟩, ⟨.unlock, ()⟩]

theorem uploads_iff_short : putsOf shortUpload = [65, 66, 67] := by
  have h : Traces (fsUploadFile "a" [65, 66, 67] 3) shortUpload (some (nsapiErrorOk, 3)) :=
    traces_iff_replay.mpr rfl
  exact (((uploads_iff _ _ _ (connected_connecting _)).1 _ h).mpr (by decide)).2

/-- With a counter that wraps, the loop puts all the bytes and reads on. -/
theorem traces_putBytes_wrap {size i : Nat} (hi : i < 2 ^ 16) (hsize : 2 ^ 16 ≤ size) (n : Nat) :
    Traces (putBytes 16 size i (List.replicate n 0)) (List.replicate n ⟨.putc 0, (1 : Int)⟩)
      none := by
  induction n generalizing i with
  | zero =>
    rw [List.replicate_zero, putBytes, if_pos (by omega)]
    exact .stop
  | succ n ih =>
    rw [List.replicate_succ, List.replicate_succ, putBytes, if_pos (by omega)]
    exact .call _ (ih (Nat.mod_lt _ (by decide)))

/-- `n` bytes are uploaded. -/
def longUpload (n : Nat) : List Exchange :=
  connecting "a" (List.replicate n 0) ++ List.replicate n ⟨.putc 0, (1 : Int)⟩

theorem traces_longUpload {n : Nat} (hn : 2 ^ 16 ≤ n) :
    Traces (fsUploadFile "a" (List.replicate n 0) (List.replicate n (0 : UInt8)).length)
      (longUpload n) none := by
  have hsize : 2 ^ 16 ≤ (List.replicate n (0 : UInt8)).length := by rwa [List.length_replicate]
  have hloop := traces_putBytes_wrap (i := 0) (by decide) hsize n
  refine traces_call.mpr ⟨_, _, rfl, traces_call.mpr ⟨_, _, rfl, ?_⟩⟩
  refine traces_call.mpr ⟨_, _, rfl, traces_call.mpr ⟨_, _, rfl, ?_⟩⟩
  exact hloop.stop_bind.stop_bind.stop_bind

/-- `2 ^ 16` bytes are uploaded: the loop does not end. -/
theorem uploads_iff_long : ¬ ∀ filename data l o,
    Traces (fsUploadFile filename data data.length) l o → Connected l →
      o ≠ none ∧ putsOf l = data := fun h =>
  (h _ _ _ _ (traces_longUpload (Nat.le_refl _)) (connected_connecting _)).1 rfl

end Bg96.Modem
