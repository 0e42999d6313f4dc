import BG96Driver.File.Implementation

/-!
# `BG96Interface`: the network, the power of the module and the files

The functions are programs of the calls that `BG96Interface` makes: operations of `BG96` and of
`FSImplementation`, the timer, the thread of the event queue. They pass the members that they use
(`BG96Interface`) on. The sockets are in `BG96Driver/Socket/Interface.lean`.

* `connect`, `setCredentials`, `disconnect`: the network.
* `powerDown`, `allowPowerOff`, `disallowPowerOff`: the power.
* `fsFreeSize`, ...: the files. `fileOp` is all of them as one function.
* `handler`: what the calls are for `BG96` and `FSImplementation`.
-/

namespace Bg96.Network

open Program

/-- The members of `BG96Interface` that these functions use. `_power_off` does not overflow. -/
structure BG96Interface where
  gIsInitialized : Int
  gBg96QueueId : Int
  powerOffAllowed : Bool
  powerOff : Int
  deriving DecidableEq

/-- `BG96Interface::BG96Interface`. It does not set `_power_off_allowed`. -/
def BG96Interface.ctor (powerOffAllowed : Bool) : BG96Interface where
  gIsInitialized := nsapiErrorNoConnection
  gBg96QueueId := -1
  powerOffAllowed := powerOffAllowed
  powerOff := 0

/-- `BG96_LIBRARY_READ_TIMEOUTMS`. -/
def readTimeoutMs : Int := 30000

/-- `DEFAULT_APN`. -/
def defaultApn : String := "m2m.tele2.com"

/-! ## The calls -/

/-- A call. A `const char *` that can be `NULL` is an `Option`. -/
inductive Call where
  | startup
  | connect (apn : String) (username password : Option String)
  | disconnect
  | powerDown
  | isConnected
  | getRev
  | readMs
  /-- `_bg96_monitor.start(...)`. -/
  | start
  /-- `_bg96_queue.cancel(id)`. -/
  | cancel (id : Int)
  /-- An operation of `*_fs_imp`. -/
  | fs (op : File.Op)

@[reducible] def Call.Reply : Call → Type
  | .startup | .disconnect | .isConnected => Bool
  | .connect .. | .readMs | .start => Int
  | .powerDown | .cancel _ => Unit
  | .getRev => Option String
  | .fs op => op.Reply

/-- A program of the interface. -/
abbrev Net := Prog Call Call.Reply

/-! ## The network -/

/-- `BG96Interface::set_credentials`. The result of `BG96::connect` is compared with `true`. -/
def setCredentials (self : BG96Interface) (apn : String) (username password : Option String) :
    Net (BG96Interface × Int) :=
  .call (.connect apn username password) fun rc =>
    let status := if rc = 1 then nsapiErrorNoConnection else nsapiErrorIsConnected
    .ret ({ self with gIsInitialized := status }, status)

/-- `BG96Interface::disconnect`. -/
def disconnect (self : BG96Interface) : Net (BG96Interface × Int) :=
  .call (.cancel self.gBg96QueueId) fun _ =>
  .call .disconnect fun ret =>
    .ret ({ self with gBg96QueueId := -1, gIsInitialized := nsapiErrorNoConnection },
      if ret then nsapiErrorOk else nsapiErrorDeviceError)

/-- The loop of `BG96Interface::connect` that starts the module, in at most the given turns. -/
def startupLoop (ok : Bool) : Nat → Net Bool
  | 0 => .stop
  | n + 1 => .call .readMs fun ms =>
    if ms < readTimeoutMs ∧ !ok then .call .startup fun ok => startupLoop ok n else .ret ok

/-- `BG96Interface::connect` after its `disconnect`, which leaves `ok`. -/
def attach (n : Nat) (self : BG96Interface) (ok : Bool) (apn : String)
    (username password : Option String) : Net (BG96Interface × Int) := do
  let ok ← startupLoop ok n
  let self ←
    if ok ∧ self.gBg96QueueId = -1 then
      .call .start fun id => .ret { self with gBg96QueueId := id }
    else pure self
  if ok then setCredentials self apn username password else return (self, nsapiErrorDeviceError)

/-- `BG96Interface::connect`. It converts the result of `disconnect` to `bool`. -/
def connect (n : Nat) (self : BG96Interface) (apn : String) (username password : Option String) :
    Net (BG96Interface × Int) := do
  if self.gIsInitialized = nsapiErrorIsConnected then
    let (self, rc) ← disconnect self
    attach n self (decide (rc ≠ 0)) apn username password
  else attach n self false apn username password

/-- The loop of `BG96Interface::connect(void)`, in at most the given turns. -/
def awaitConnected : Nat → Net Unit
  | 0 => .stop
  | n + 1 => .call .isConnected fun up => if up then .ret () else awaitConnected n

/-- `BG96Interface::connect(void)`. -/
def connectDefault (n : Nat) (self : BG96Interface) : Net (BG96Interface × Int) := do
  let (self, ret) ←
    if self.gIsInitialized = nsapiErrorNoConnection then
      .call .getRev fun _ => connect n self defaultApn none none
    else pure (self, nsapiErrorOk)
  awaitConnected n
  return (self, ret)

/-! ## The power -/

/-- `BG96Interface::powerDown`. -/
def powerDown (self : BG96Interface) : Net (BG96Interface × Bool) := do
  if self.powerOffAllowed = false then return (self, false)
  let (self, _) ← disconnect self
  .call .powerDown fun _ => .ret (self, true)

/-- `BG96Interface::allowPowerOff`. -/
def allowPowerOff (self : BG96Interface) : BG96Interface :=
  { self with powerOffAllowed := true, powerOff := self.powerOff + 1 }

/-- `BG96Interface::disallowPowerOff`. -/
def disallowPowerOff (self : BG96Interface) : BG96Interface :=
  { self with
    powerOff := self.powerOff - 1
    powerOffAllowed := if self.powerOff - 1 = 0 then false else self.powerOffAllowed }

/-! ## The files -/

/-- A call of `*_fs_imp`. -/
def fsImp (op : File.Op) : Net op.Reply := .call (.fs op) .ret

/-- An operation between `disallowPowerOff` and `allowPowerOff`. -/
def bracketed (self : BG96Interface) (op : File.Op) : Net (BG96Interface × op.Reply) := do
  let self := disallowPowerOff self
  let r ← fsImp op
  return (allowPowerOff self, r)

/-- An operation on an open file. -/
def unbracketed (self : BG96Interface) (op : File.Op) : Net (BG96Interface × op.Reply) := do
  let r ← fsImp op
  return (self, r)

/-- `BG96Interface::fs_free_size`. -/
def fsFreeSize (self : BG96Interface) : Net (BG96Interface × Int) := bracketed self .freeSize

/-- `BG96Interface::fs_total_size`. -/
def fsTotalSize (self : BG96Interface) : Net (BG96Interface × Int) := bracketed self .totalSize

/-- `BG96Interface::fs_total_number_of_files`. -/
def fsTotalNumberOfFiles (self : BG96Interface) : Net (BG96Interface × Int) :=
  bracketed self .totalNumberOfFiles

/-- `BG96Interface::fs_total_size_of_files`. -/
def fsTotalSizeOfFiles (self : BG96Interface) : Net (BG96Interface × Int) :=
  bracketed self .totalSizeOfFiles

/-- `BG96Interface::fs_file_size`. -/
def fsFileSize (self : BG96Interface) (filename : String) : Net (BG96Interface × Int) :=
  bracketed self (.fileSize filename)

/-- `BG96Interface::fs_file_exists`. -/
def fsFileExists (self : BG96Interface) (filename : String) : Net (BG96Interface × Bool) :=
  bracketed self (.fileExists filename)

/-- `BG96Interface::fs_delete_file`. -/
def fsDeleteFile (self : BG96Interface) (filename : String) : Net (BG96Interface × Int) :=
  bracketed self (.deleteFile filename)

/-- `BG96Interface::fs_upload_file`. -/
def fsUploadFile (self : BG96Interface) (filename : String) (data : List UInt8) (size : Nat) :
    Net (BG96Interface × Int) := bracketed self (.uploadFile filename data size)

/-- `BG96Interface::fs_download_file`. -/
def fsDownloadFile (self : BG96Interface) (filename : String) :
    Net (BG96Interface × Int × Option Int × List UInt8) := bracketed self (.downloadFile filename)

/-- `BG96Interface::fs_open`. -/
def fsOpen (self : BG96Interface) (filename : String) (mode : File.FileMode) :
    Net (BG96Interface × Bool × Option Int) := do
  let self := disallowPowerOff self
  let rstatus ← fsImp (.open filename mode)
  return (self, rstatus)

/-- `BG96Interface::fs_close`. -/
def fsClose (self : BG96Interface) (fh : Int) : Net (BG96Interface × Bool) := do
  let rstatus ← fsImp (.close fh)
  return (allowPowerOff self, rstatus)

/-- `BG96Interface::fs_read`. -/
def fsRead (self : BG96Interface) (fh : Int) (length : Nat) :
    Net (BG96Interface × Bool × List UInt8) := unbracketed self (.read fh length)

/-- `BG96Interface::fs_write`. -/
def fsWrite (self : BG96Interface) (fh : Int) (length : Nat) (data : List UInt8) :
    Net (BG96Interface × Bool) := unbracketed self (.write fh length data)

/-- `BG96Interface::fs_seek`. -/
def fsSeek (self : BG96Interface) (fh : Int) (offset : Nat) : Net (BG96Interface × Bool) :=
  unbracketed self (.seek fh offset)

/-- `BG96Interface::fs_rewind`. -/
def fsRewind (self : BG96Interface) (fh : Int) : Net (BG96Interface × Bool) :=
  unbracketed self (.rewind fh)

/-- `BG96Interface::fs_eof`. -/
def fsEof (self : BG96Interface) (fh : Int) : Net (BG96Interface × Bool) :=
  unbracketed self (.eof fh)

/-- `BG96Interface::fs_get_offset`. -/
def fsGetOffset (self : BG96Interface) (fh : Int) : Net (BG96Interface × Bool × Option Int) :=
  unbracketed self (.getOffset fh)

/-- `BG96Interface::fs_truncate`. -/
def fsTruncate (self : BG96Interface) (fh : Int) (offset : Nat) : Net (BG96Interface × Bool) :=
  unbracketed self (.truncate fh offset)

/-- The file operations of the interface. -/
def fileOp (self : BG96Interface) : (op : File.Op) → Net (BG96Interface × op.Reply)
  | .freeSize => fsFreeSize self
  | .totalSize => fsTotalSize self
  | .totalNumberOfFiles => fsTotalNumberOfFiles self
  | .totalSizeOfFiles => fsTotalSizeOfFiles self
  | .fileSize filename => fsFileSize self filename
  | .fileExists filename => fsFileExists self filename
  | .deleteFile filename => fsDeleteFile self filename
  | .uploadFile filename data size => fsUploadFile self filename data size
  | .downloadFile filename => fsDownloadFile self filename
  | .open filename mode => fsOpen self filename mode
  | .read fh length => fsRead self fh length
  | .write fh length data => fsWrite self fh length data
  | .seek fh offset => fsSeek self fh offset
  | .rewind fh => fsRewind self fh
  | .eof fh => fsEof self fh
  | .getOffset fh => fsGetOffset self fh
  | .truncate fh offset => fsTruncate self fh offset
  | .close fh => fsClose self fh

/-! ## The calls as programs of the parser -/

/-- The members that the calls use: `_BG96` and the `_fs_error` of `*_fs_imp`. -/
structure Parts where
  bg96 : Modem.BG96
  fsError : File.FsError

/-- What a call does. The loops of `BG96` have `n` turns, and `started` is the result of
`Thread::start`. -/
def handler (n : Nat) (started : Int) (parts : Parts) : (c : Call) → Modem.At (c.Reply × Parts)
  | .startup => do
    let (bg96, done) ← Modem.startup n parts.bg96
    return (done, { parts with bg96 := bg96 })
  | .connect apn username password => do
    let rc ← Modem.connect n parts.bg96 apn (username.getD "") (password.getD "")
    return (rc, parts)
  | .disconnect => do return (← Modem.disconnect parts.bg96, parts)
  | .powerDown => return ((), { parts with bg96 := Modem.powerDown parts.bg96 })
  | .isConnected => do return (← Modem.isConnected, parts)
  | .getRev => do return (← Modem.getRev, parts)
  | .readMs => do return (← Modem.readMs true, parts)
  | .start => return (started, parts)
  | .cancel _ => return ((), parts)
  | .fs op => do
    let (r, fsError) ← op.at parts.fsError
    return (r, { parts with fsError := fsError })

end Bg96.Network
