import BG96Driver.Modem.Network

/-!
# `BG96`: files and TLS

* `fsOpen`, `fsRead`, `fsWrite`, ...: the file system of the module.
* `sendFile`, `configureCacertPath`, ...: the files that TLS uses.
* `sslopen`, `sslsend`, `sslrecv`, `sslclose`: TLS sockets.

The loops that move the bytes of a file run over the buffer (`putBytes`, `getBytes`).
-/

namespace Bg96.Modem

open Program

/-- The loops `for (i = 0; i < size; i++) _parser.putc(*c++);`, where `i` has the given bits. They
stop where the source reads beyond the buffer. -/
def putBytes (bits size : Nat) : Nat → List UInt8 → At Unit
  | i, [] => if i < size then .stop else return ()
  | i, c :: data =>
    if i < size then do
      let _ ← Parser.putc c
      putBytes bits size ((i + 1) % 2 ^ bits) data
    else return ()

/-- The loops `*c++ = _parser.getc();`. A byte that does not come in time is `(char)-1`. -/
def getBytes : Nat → At (List UInt8)
  | 0 => return []
  | n + 1 => do
    let c ← Parser.getc
    return c.getD 255 :: (← getBytes n)

section Only

variable {T : Prop} {P : Call → Prop}

/-- The loops over a buffer end if the buffer is long enough and the counter does not wrap. -/
theorem only_putBytes {bits size : Nat} (hp : ∀ c, P (.putc c)) (data : List UInt8) (i : Nat)
    (hT : i + data.length < size ∨ 2 ^ bits ≤ size → T) : Only T P (putBytes bits size i data) := by
  induction data generalizing i with
  | nil =>
    refine only_ite.mpr ⟨fun hi => ?_, fun _ => trivial⟩
    exact hT (.inl hi)
  | cons c data ih =>
    refine only_ite.mpr ⟨fun hi => ⟨hp c, fun _ => ih _ fun h => hT ?_⟩, fun _ => trivial⟩
    rcases h with h | h
    · by_cases hb : 2 ^ bits ≤ size
      · exact .inr hb
      · rw [Nat.mod_eq_of_lt (by omega)] at h
        rw [List.length_cons]
        omega
    · exact .inr h

theorem only_getBytes (hg : P .getc) (n : Nat) : Only T P (getBytes n) := by
  induction n with
  | zero => trivial
  | succ n ih => exact ⟨hg, fun c => ih.map⟩

end Only

/-- What the loop that sends the data does where a call of `putc` changes the state by `f`: it sends
all the data, or it does not end. -/
theorem wp_putBytes_fold {S : Type} {E : Env S Call Call.Reply} {f : S → UInt8 → S}
    (hf : ∀ s c r s', E s (.putc c) r s' → s' = f s c) {bits size : Nat} (data : List UInt8)
    {i : Nat} (hsize : i + data.length = size) (hi : i < 2 ^ bits) (s : S) :
    wp E True (fun _ s' => s' = data.foldl f s) (putBytes bits size i data) s := by
  by_cases hlong : 2 ^ bits ≤ size
  · -- the counter wraps before it gets to the end
    have hstops {Q : Unit → S → Prop} : wp E True Q (putBytes bits size i data) s := by
      clear hsize
      induction data generalizing i s with
      | nil =>
        rw [putBytes, if_pos (by omega)]
        trivial
      | cons c data ih =>
        rw [putBytes, if_pos (by omega)]
        exact fun _ s' _ => ih (Nat.mod_lt _ (Nat.two_pow_pos bits)) s'
    exact hstops
  · induction data generalizing i s with
    | nil =>
      rw [List.length_nil] at hsize
      rw [putBytes, if_neg (by omega)]
      rfl
    | cons c data ih =>
      rw [List.length_cons] at hsize
      rw [putBytes, if_pos (by omega)]
      intro r s' hput
      obtain rfl := hf _ _ _ _ hput
      rw [Nat.mod_eq_of_lt (by omega)]
      exact ih (by omega) (by omega) _

/-! ## The file system -/

/-- `BG96::fs_size`: the free and the total size. -/
def fsSize : At (Int × Option (Int × Int)) := do
  return match ← locked (timed 2000 (query ⟨"AT+QFLDS=\"UFS\"", []⟩ ⟨"+QFLDS: %u,%u", []⟩)) with
    | some vs => (nsapiErrorOk, some (intAt vs 0, intAt vs 1))
    | none => (nsapiErrorDeviceError, none)

/-- `BG96::fs_nfiles`: the size of the files and their number. -/
def fsNfiles : At (Int × Option (Int × Int)) := do
  return match ← locked (timed 2000 (query ⟨"AT+QFLDS", []⟩ ⟨"+QFLDS: %u,%d", []⟩)) with
    | some vs => (nsapiErrorOk, some (intAt vs 0, intAt vs 1))
    | none => (nsapiErrorDeviceError, none)

/-- `BG96::fs_file_size`. The array `dummy` has 80 characters. -/
def fsFileSize (filename : String) : At (Int × Option Int) := do
  return match ← locked (timed 2000 (queryInto [(0, 80)]
      ⟨"AT+QFLST=\"%s\"", [.str filename]⟩ ⟨"+QFLST: \"%80[^\"]\",%u", []⟩)) with
    | some vs => (nsapiErrorOk, some (intAt vs 1))
    | none => (nsapiErrorDeviceError, none)

/-- The command that deletes a file. -/
def qfdel (filename : String) : Format := ⟨"AT+QFDEL=\"%s\"", [.str filename]⟩

/-- `BG96::fs_delete_file`. -/
def fsDeleteFile (filename : String) : At Int := do
  return if ← locked (timed 2000 (command (qfdel filename))) then 0 else -1

/-- `_parser.send(cmd) && _parser.recv("CONNECT")` -/
def connectData (cmd : Format) : At Bool := do
  return (← peek cmd ⟨"CONNECT", []⟩).isSome

/-- The line that ends an upload. -/
def qfupl : Format := ⟨"+QFUPL: %u, %X\r\n", []⟩

/-- `BG96::fs_upload_file`, with `lsize` after it. -/
def fsUploadFile (filename : String) (data : List UInt8) (lsize : Nat) : At (Int × Int) :=
  locked <| timed bg96Wait1s do
    if ← connectData ⟨"AT+QFUPL=\"%s\",%u", [.str filename, .int lsize]⟩ then
      putBytes 16 lsize 0 data
      Parser.setTimeout bg96Wait1s
      match ← Parser.recv qfupl with
      | some vs =>
        let _ ← recvOk
        return (nsapiErrorOk, intAt vs 0)
      | none => return (nsapiErrorDeviceError, lsize)
    else return (-1, 0)

/-- `BG96::fs_download_file`: its result, `filesize` and `checksum` after it, and the data. -/
def fsDownloadFile (filename : String) (filesize : Nat) :
    At (Int × Int × Option Int × List UInt8) :=
  locked <| timed 2000 do
    if ← connectData ⟨"AT+QFDWL=\"%s\"", [.str filename]⟩ then
      let data ← getBytes filesize
      Parser.setTimeout atTimeout
      match ← Parser.recv ⟨"+QFDWL: %u,%hX\r\n", []⟩ with
      | some vs =>
        if intAt vs 0 = filesize then return (nsapiErrorOk, filesize, some (intAt vs 1), data)
        else return (nsapiErrorDeviceError, 0, some 0, data)
      | none => return (nsapiErrorDeviceError, 0, some 0, data)
    else return (nsapiErrorDeviceError, 0, none, [])

/-- `BG96::fs_open`: its result, and what it stores in `fh`. -/
def fsOpen (filename : String) (mode : Int) : At (Int × Option Int) :=
  locked do
    if ← Parser.send ⟨"AT+QFOPEN=\"%s\",%d", [.str filename, .int mode]⟩ then
      match ← recvThenOk ⟨"+QFOPEN: %ld\r\n", []⟩ with
      | some vs => return (nsapiErrorOk, some (intAt vs 0))
      | none => return (nsapiErrorDeviceError, some 0)
    else return (nsapiErrorDeviceError, none)

/-- `BG96::fs_read`: its result, and the data. -/
def fsRead (fh : Int) (length : Nat) : At (Int × List UInt8) :=
  locked <| timed 2000 do
    if ← connectData ⟨"AT+QFREAD=%ld, %u", [.int fh, .int length]⟩ then
      let data ← getBytes length
      if ← recvOk then return (nsapiErrorOk, data) else return (nsapiErrorDeviceError, data)
    else return (nsapiErrorDeviceError, [])

/-- `BG96::fs_write`. -/
def fsWrite (fh : Int) (length : Nat) (data : List UInt8) : At Int :=
  locked <| timed 5000 do
    if ← connectData ⟨"AT+QFWRITE=%ld, %u", [.int fh, .int length]⟩ then
      putBytes 32 length 0 data
      if ← recvOk then return nsapiErrorOk else return nsapiErrorDeviceError
    else return nsapiErrorDeviceError

/-- `BG96::fs_seek`. -/
def fsSeek (fh : Int) (offset : Nat) (position : Int) : At Int := do
  return if ← locked (command ⟨"AT+QFSEEK=%ld,%u,%d", [.int fh, .int offset, .int position]⟩) then
    nsapiErrorOk
  else nsapiErrorDeviceError

/-- `BG96::fs_get_offset`: its result, and what it stores in `offset`. -/
def fsGetOffset (fh : Int) : At (Int × Option Int) := do
  return match ← locked (peek ⟨"AT+QFPOSITION=%ld", [.int fh]⟩ ⟨"+QFPOSITION: %u\r\n", []⟩) with
    | some vs => (nsapiErrorOk, some (intAt vs 0))
    | none => (nsapiErrorDeviceError, none)

/-- `BG96::fs_truncate`. It does not use `offset`. -/
def fsTruncate (fh : Int) (_offset : Nat) : At Int := do
  return if ← locked (timed 2000 (command ⟨"AT+QFTUCAT=%ld", [.int fh]⟩)) then nsapiErrorOk
  else nsapiErrorDeviceError

/-- `BG96::fs_close`. -/
def fsClose (fh : Int) : At Int := do
  return if ← locked (timed 2000 (command ⟨"AT+QFCLOSE=%ld", [.int fh]⟩)) then nsapiErrorOk
  else nsapiErrorDeviceError

/-! ## The files that TLS uses -/

/-- `BG96::file_exists`. The arrays `cmd` and `file` have 128 and 80 characters. -/
def fileExists (filename : String) : At Bool := do
  sprintfCommand 128 ⟨"AT+QFLST=\"%s\"", [.str filename]⟩
  return match ← locked (timed 2000 (queryInto [(0, 80)]
      ⟨"AT+QFLST=\"%s\"", [.str filename]⟩ ⟨"+QFLST: \"%[^\"]\",%d", []⟩)) with
    | some vs => strAt vs 0 = filename
    | none => false

/-- `BG96::delete_file`. -/
def deleteFile (filename : String) : At Bool := do
  sprintfCommand 128 (qfdel filename)
  locked (command (qfdel filename))

/-- The part of `BG96::send_file` that uploads the file. -/
def uploadFile (content : List UInt8) (filename : String) : At Int := do
  sprintfCommand 128 ⟨"AT+QFUPL=\"%s\",%d", [.str filename, .int (content.length + 1)]⟩
  locked <| timed bg96Wait1s do
    if ← connectData ⟨"AT+QFUPL=\"%s\",%d", [.str filename, .int (content.length + 1)]⟩ then
      putBytes 16 (content.length + 1) 0 (content ++ [0])
      Parser.setTimeout bg96Wait1s
      match ← Parser.recv qfupl with
      | some _ =>
        let _ ← recvOk
        return 1
      | none => return 0
    else return 0

theorem only_uploadFile {P : Call → Prop} {content : List UInt8} {filename : String}
    (hl : P .lock) (hu : P .unlock) (ht : ∀ ms, P (.setTimeout ms))
    (hs : P (.send ⟨"AT+QFUPL=\"%s\",%d", [.str filename, .int (content.length + 1)]⟩))
    (hr : ∀ pattern, P (.recv pattern)) (hp : ∀ c, P (.putc c)) :
    Only True P (uploadFile content filename) := by
  refine (only_sprintfCommand fun _ => trivial).bind fun _ => only_locked hl hu (only_timed ht ?_)
  refine (only_peek hs (hr _)).map.bind fun ok => only_ite.mpr ⟨fun _ => ?_, fun _ => trivial⟩
  refine (only_putBytes hp _ 0 fun _ => trivial).bind fun _ => ⟨ht _, fun _ => ?_⟩
  refine (only_recv (hr _)).bind fun vs => ?_
  cases vs with
  | none => trivial
  | some vs => exact (only_recvOk (hr _)).map

/-- `BG96::send_file` of a string's characters, with whether it keeps the file that is there. -/
def sendFileKept (content : List UInt8) (filename : String) (overrideok : Bool) :
    At (Bool × Int) := do
  if ← fileExists filename then
    if overrideok then
      if ← deleteFile filename then return (false, ← uploadFile content filename)
      else return (false, 0)
    else return (true, 1)
  else return (false, ← uploadFile content filename)

/-- `BG96::send_file`. -/
def sendFile (content : List UInt8) (filename : String) (overrideok : Bool) : At Int := do
  return (← sendFileKept content filename overrideok).2

/-- `BG96::configure_cacert_path`, with whether the path was acknowledged. -/
def configureCacert (path : String) (sslctxId : Int) : At (Bool × Int) :=
  locked <| timed 3000 do
    if ← command ⟨"AT+QSSLCFG=\"cacert\",%d,\"%s\"", [.int sslctxId, .str path]⟩ then
      return (true, 1)
    else
      let err ← getError
      let _ ← command ⟨"AT+QSSLCFG=?", []⟩
      -- the error number is printed, and read back
      return (false, err.elim (-1) Prod.fst)

/-- `BG96::configure_cacert_path`. -/
def configureCacertPath (path : String) (sslctxId : Int) : At Int := do
  return (← configureCacert path sslctxId).2

/-- `BG96::configure_client_cert_path`. -/
def configureClientCertPath (path : String) (sslctxId : Int) : At Int := do
  return if ← locked (command ⟨"AT+QSSLCFG=\"clientcert\",%d,\"%s\"", [.int sslctxId, .str path]⟩) then
    1
  else 0

/-- `BG96::configure_privkey_path`. -/
def configurePrivkeyPath (path : String) (sslctxId : Int) : At Int := do
  return if ← locked (command ⟨"AT+QSSLCFG=\"clientkey\",%d,\"%s\"", [.int sslctxId, .str path]⟩) then
    1
  else 0

/-! ## TLS sockets -/

/-- The command of `BG96::sslopen`. -/
def qsslopen (hostname : String) (port pdpCtx clientId sslctxId : Int) : Format :=
  ⟨"AT+QSSLOPEN=%d,%d,%d,\"%s\",%d",
    [.int pdpCtx, .int clientId, .int sslctxId, .str hostname, .int port]⟩

/-- `BG96::sslopen`. -/
def sslopen (hostname : String) (port pdpCtx clientId sslctxId : Int) : At Bool :=
  if clientId < 0 ∨ 11 < clientId then return false
  else if pdpCtx < 1 ∨ 11 < pdpCtx then return false
  else locked <| timed bg96Timeout150s do
    if ← command (qsslopen hostname port pdpCtx clientId sslctxId) then
      match ← Parser.recv ⟨"+QSSLOPEN: %d,%d", []⟩ with
      | some vs => return intAt vs 1 = 0
      | none => return false -- `err` is still -1
    else return false

/-- `BG96::ssl_client_status`. The result of `recv` is not kept, and `done` is never set. -/
def sslClientStatus (clientId : Int) : At Bool := do
  let _ ← locked <| timed bg96Timeout60s <|
    peek ⟨"AT+QSSLSTATE=%d", [.int clientId]⟩
      ⟨"+QSSLSTATE:%d,\"%[^\"]\",\"%[^\"]\",%d,%d,%d,%d,%d,%d,\"%[^\"]\",%d", []⟩
  return false

/-- The command of `BG96::sslsend`. -/
def qsslsend (clientId : Int) (data : List UInt8) : Format :=
  ⟨"AT+QSSLSEND=%d,%ld", [.int clientId, .int data.length]⟩

/-- `BG96::sslsend` of the `amount` bytes at `data`. -/
def sslsend (clientId : Int) (data : List UInt8) : At Int :=
  locked <| timed bg96TxTimeout do
    let size ←
      if (← peek (qsslsend clientId data) ⟨">", []⟩).isSome then Parser.write data else pure (-1)
    let _ ← Parser.recv ⟨"SEND OK", []⟩
    return size

/-- `BG96::sslsend` with a time-out. The result of `send` is not tested. -/
def sslsendTimeout (clientId : Int) (data : List UInt8) (timeout : Int) : At Int :=
  locked <| timed timeout do
    let _ ← Parser.send (qsslsend clientId data)
    if (← Parser.recv ⟨">", []⟩).isSome then
      let size ← Parser.write data
      let _ ← Parser.recv ⟨"SEND OK", []⟩
      return size
    else return -1

/-- `BG96::sslChkRxAvail`. -/
def sslChkRxAvail (clientId : Int) : At Bool :=
  locked <| timed 1 do return (← Parser.recv ⟨"+QSSLURC: \"recv\",%d", [.int clientId]⟩).isSome

/-- `BG96::sslrecv`: its result, and the bytes stored at `data`. -/
def sslrecv (clientId : Int) (cnt : Nat) : At (Int × List UInt8) := do
  let _ ← sslChkRxAvail clientId
  locked <| timed bg96RxTimeout do
    match ← peek ⟨"AT+QSSLRECV=%d,%d", [.int clientId, .int (toInt cnt)]⟩
        ⟨"+QSSLRECV:%d\r\n", []⟩ with
    | some vs =>
      if 0 < intAt vs 0 then
        let (ret, data) ← Parser.read (intAt vs 0)
        let _ ← recvOk
        return (ret, data)
      else return (intAt vs 0, [])
    | none => return (0, [])

/-- `BG96::sslclose`. -/
def sslclose (clientId : Int) : At Bool :=
  locked (timed bg96Timeout60s (command ⟨"AT+QSSLCLOSE=%d,%d", [.int clientId, .int bg96CloseTo]⟩))

end Bg96.Modem
