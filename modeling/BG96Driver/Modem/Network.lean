import BG96Driver.Modem.Parser

/-!
# `BG96`: the module, the network and the sockets

The object (`BG96`) is passed explicitly; an operation that changes it returns it. A program with a
loop that waits for the modem has the number of turns `n`, and stops when they run out.

* `startup`, `connect`, `connectPdp`, `disconnect`: the module and its attachment to the network.
* `«open»`, `send`, `recv`, `close`: the sockets.
* `getError`, `getRssi`, ...: the other queries.
-/

namespace Bg96.Modem

open Program

/-- `BG96_PDP_Ctx`. -/
structure PdpCtx where
  pdpId : Int
  apn : String
  username : String
  password : String
  deriving DecidableEq

/-- The members of `BG96` that its operations use: the context, the pins of the module, and the
location, as the string that it was made from (`none` before the first one). -/
structure BG96 where
  contextID : Int
  bg96Reset : Bool
  vbat3v8En : Bool
  bg96Pwrkey : Bool
  gnssLoc : Option String
  deriving DecidableEq

/-- `BG96::BG96`. -/
def BG96.ctor : BG96 where
  contextID := 1
  bg96Reset := false
  vbat3v8En := false
  bg96Pwrkey := false
  gnssLoc := none

/-- `BG96_1s_WAIT`. -/
def bg96Wait1s : Int := 1000

/-- `BG96_60s_TO`. -/
def bg96Timeout60s : Int := 60000

/-- `BG96_150s_TO`. -/
def bg96Timeout150s : Int := 150000

/-- `BG96_TX_TIMEOUT`. -/
def bg96TxTimeout : Int := 2000

/-- `BG96_RX_TIMEOUT`. -/
def bg96RxTimeout : Int := 1000

/-- `BG96_WAIT4READY`. -/
def bg96Wait4Ready : Int := 15000

/-- `BG96_CLOSE_TO`. -/
def bg96CloseTo : Int := 1

/-! ## The module -/

/-- `BG96::powerDown`. -/
def powerDown (self : BG96) : BG96 := { self with bg96Pwrkey := false, vbat3v8En := false }

/-- `BG96::reset`: the last values of the pins. -/
def reset (self : BG96) : BG96 :=
  { self with bg96Reset := false, vbat3v8En := true, bg96Pwrkey := true }

/-- `BG96::tx2bg96`. -/
def tx2bg96 (cmd : Format) : At Bool := locked (command cmd)

/-- `BG96::getRev`. -/
def getRev : At (Option String) :=
  locked do
    if ← tx2bg96 ⟨"AT+CGMM", []⟩ then
      match ← recvThenOk ⟨"%s\n", []⟩ with
      | some buf1 =>
        match ← query ⟨"AT+CGMR", []⟩ ⟨"%s\n", []⟩ with
        | some buf2 => return some (strAt buf1 0 ++ " Rev:" ++ strAt buf2 0)
        | none => return none
      | none => return none
    else return none

/-- `BG96::doDebug`: `debug_on(f & 0x80)`, without the mutex. -/
def doDebug (f : Int) : At Unit := Parser.debugOn (128 ≤ f % 256)

/-- `BG96::setContext`. -/
def setContext (self : BG96) (i : Int) : BG96 × Int :=
  if 16 < i then (self, -1)
  else if i < 1 then (self, self.contextID)
  else ({ self with contextID := i }, i)

/-- The command that sets the parameters of a context. -/
def qicsgp (id : Int) (apn username password : String) : Format :=
  ⟨"AT+QICSGP=%d,1,\"%s\",\"%s\",\"%s\"", [.int id, .str apn, .str username, .str password]⟩

/-- `BG96::configure_pdp_context`; `none` is `NULL`. -/
def configurePdpContext (self : BG96) : Option PdpCtx → At (BG96 × Int)
  | none => return (self, -1)
  | some ctx => do
    let self := (setContext self ctx.pdpId).1
    if ← locked (command (qicsgp ctx.pdpId ctx.apn ctx.username ctx.password)) then
      return (self, ctx.pdpId)
    else return (self, -1)

/-- `BG96::BG96Ready`. -/
def bg96Ready (n : Nat) (self : BG96) : At (BG96 × Bool) :=
  locked do
    let done ← retry true bg96Wait4Ready (do return (← Parser.recv ⟨"RDY", []⟩).isSome) n
    return (reset self, done)

/-- `BG96::getSIMStatus`. -/
def getSimStatus : At Bool := locked (timed 20000 (command ⟨"AT+CPIN?", []⟩))

/-- `BG96::getCSServiceStatus`. The result of `send` is not tested. -/
def getCsServiceStatus : At Bool :=
  locked <| timed 90000 do
    let _ ← Parser.send ⟨"AT+CREG?", []⟩
    match ← recvThenOk ⟨"+CREG: %d,%d", []⟩ with
    | some vs => return 0 < intAt vs 1
    | none => return false

/-- `BG96::configureGNSS`: its body is commented out. -/
def configureGnss : Bool := true

/-- `BG96::startup`. -/
def startup (n : Nat) (self : BG96) : At (BG96 × Bool) := do
  let (self, ready) ← bg96Ready n self
  if ready then return (self, configureGnss) else return (self, false)

/-! ## The network -/

/-- The loop of `BG96::connect` that waits for the registration, with `i` turns left: is the module
registered? -/
def registrationLoop : Nat → At Bool
  | 0 => return false
  | i + 1 => do
    if ← Parser.send ⟨"AT+CGREG?", []⟩ then
      match ← Parser.recv ⟨"+CGREG: %d, %d", []⟩ with
      | some vs => if intAt vs 1 = 1 ∨ intAt vs 1 = 5 then return true else registrationLoop i
      | none => registrationLoop i
    else registrationLoop i

theorem only_registrationLoop {T : Prop} {P : Call → Prop} (hs : P (.send ⟨"AT+CGREG?", []⟩))
    (hr : P (.recv ⟨"+CGREG: %d, %d", []⟩)) (i : Nat) : Only T P (registrationLoop i) := by
  induction i with
  | zero => trivial
  | succ i ih =>
    refine ⟨hs, fun sent => only_ite.mpr ⟨fun _ => ⟨hr, fun vs => ?_⟩, fun _ => ih⟩⟩
    cases vs with
    | none => exact ih
    | some vs => exact only_ite.mpr ⟨fun _ => trivial, fun _ => ih⟩

/-- The first part of `BG96::connect`, with what it leaves in `done`. `techno` starts at 2, so that
the loop around it has one turn. -/
def register : At Bool := do
  if ← tx2bg96 ⟨"ATE0", []⟩ then
    let _ ← tx2bg96 ⟨"AT+CGREG=0", []⟩
    if ← registrationLoop 255 then
      -- the operator is only written to the debug output; `telco` has 15 characters
      let _ ← peekInto [(2, 15)] ⟨"AT+COPS?", []⟩ ⟨"+COPS: %d, %d, \"%[^\"]\", %d", []⟩
      let _ ← tx2bg96 ⟨"AT+CTZU=1", []⟩
      return true
    else return false
  else return true -- `done` is still -1

/-- The command with which `BG96::connect` stores the parameters of the context. -/
def storeApn (self : BG96) (apn username password : String) : Format :=
  ⟨"AT+QICSGP=%d,1,\"%s\",\"%s\",\"%s\",0",
    [.int self.contextID, .str apn, .str username, .str password]⟩

/-- `lapn`, `lusername` and `lpassword`. -/
def loginArrays : List (Nat × Nat) := [(1, 40), (2, 20), (3, 20)]

/-- The second part of `BG96::connect`: it stores the parameters if there are none. It is `false`
when they cannot be stored. -/
def checkApn (self : BG96) (apn username password : String) : At Bool := do
  Parser.setTimeout 5000
  let done ←
    if ← Parser.send ⟨"AT+QICSGP=%d", [.int self.contextID]⟩ then
      pure (← recvInto loginArrays
        ⟨"+QICSGP: %d,\"%[^\"]\",\"%[^\"]\",\"%[^\"]\",%d\r\n", []⟩).isSome
    else pure true
  if done then
    let _ ← recvOk
    Parser.setTimeout atTimeout
    return true
  else
    Parser.setTimeout atTimeout
    command (storeApn self apn username password)

/-- The command that activates the context. -/
def qiact (self : BG96) : Format := ⟨"AT+QIACT=%d", [.int self.contextID]⟩

/-- `BG96::connect(int)`. It does not use its argument, and its timer is never started. -/
def connectPdp (n : Nat) (self : BG96) (_pdpId : Int) : At Int :=
  locked do
    let done ← retry false bg96Timeout150s (tx2bg96 (qiact self)) n
    Parser.setTimeout atTimeout
    return if done then nsapiErrorOk else nsapiErrorDeviceError

/-- `BG96::connect(const char*, const char*, const char*)`. -/
def connect (n : Nat) (self : BG96) (apn username password : String) : At Int := do
  lock
  Parser.setTimeout 2000
  let stored ← if ← register then checkApn self apn username password else pure true
  if stored then
    unlock
    connectPdp n self self.contextID
  else return nsapiErrorDeviceError

/-- `BG96::disconnect`. -/
def disconnect (self : BG96) : At Bool :=
  locked (timed bg96Timeout60s (tx2bg96 ⟨"AT+QIDEACT=%d\r", [.int self.contextID]⟩))

/-- The conversion `%d` of `sscanf`: the number, and what follows it. -/
def scanInt (s : List Char) : Option (Int × List Char) :=
  let s := s.dropWhile Char.isWhitespace
  let (sign, s) : Int × List Char :=
    match s with
    | '-' :: s => (-1, s)
    | '+' :: s => (1, s)
    | s => (1, s)
  let digits := s.takeWhile Char.isDigit
  if digits = [] then none
  else some (sign * digits.foldl (fun n c => 10 * n + (c.toNat - '0'.toNat)) 0,
    s.dropWhile Char.isDigit)

/-- `sscanf` with the format `%d,%d,...` of `k` conversions: the numbers that it converts. -/
def scanInts : Nat → List Char → List Int
  | 0, _ => []
  | k + 1, s =>
    match scanInt s with
    | none => []
    | some (n, ',' :: s) => n :: scanInts k s
    | some (n, _) => [n]

/-- The pattern of an address in the answer of `BG96::resolveUrl`. -/
def dnsAddress : Format := ⟨"+QIURC: \"dnsgip\",\"%[^\"]\"", []⟩

/-- A number that an `int` holds. -/
def isInt (n : Int) : Bool := -2 ^ 31 ≤ n && n < 2 ^ 31

/-- The loop of `BG96::resolveUrl` that discards the other addresses. They go to `buf2`. -/
def discardAddresses : Nat → At Unit
  | 0 => return ()
  | i + 1 => do
    let _ ← recvInto [(0, 50)] dnsAddress
    discardAddresses i

theorem only_discardAddresses {P : Call → Prop} (hr : P (.recv dnsAddress)) (i : Nat) :
    Only True P (discardAddresses i) := by
  induction i with
  | zero => trivial
  | succ i ih => exact (only_recvInto trivial hr).bind fun _ => ih

/-- The part of `BG96::resolveUrl` after the `OK`: its result, and `ipstr`, which has the size. -/
def resolveAddress (size : Nat) : At (Bool × String) := do
  Parser.setTimeout bg96Timeout60s
  match ← recvInto [(0, 50)] ⟨"+QIURC: \"dnsgip\",%s\r\n", []⟩ with
  | none => return (true, "")
  | some vs =>
    -- `sscanf` of a number that is no `int` is not defined
    if (scanInts 3 (strAt vs 0).toList).all isInt then
      match scanInts 3 (strAt vs 0).toList with
      | [] => return (true, "")
      | err :: counts =>
        if 0 < err then return (false, "")
        else match counts with
          | [ipcount, _] =>
            if err = 0 ∧ 0 < ipcount then
              match ← recvInto [(0, size)] dnsAddress with
              | some vs =>
                Parser.setTimeout bg96Wait1s
                discardAddresses (ipcount - 1).toNat
                return (true, strAt vs 0)
              | none => return (false, "")
            else return (true, "")
          | _ => return (true, "")
    else .stop

theorem only_resolveAddress {P : Call → Prop} (size : Nat) (ht : ∀ ms, P (.setTimeout ms))
    (hr : ∀ pattern, P (.recv pattern)) : Only True P (resolveAddress size) := by
  refine ⟨ht _, fun _ => (only_recvInto trivial (hr _)).bind fun vs => ?_⟩
  cases vs with
  | none => trivial
  | some vs =>
    refine only_ite.mpr ⟨fun _ => ?_, fun _ => trivial⟩
    split
    · trivial
    · refine only_ite.mpr ⟨fun _ => trivial, fun _ => ?_⟩
      split
      · refine only_ite.mpr
          ⟨fun _ => (only_recvInto trivial (hr _)).bind fun vs => ?_, fun _ => trivial⟩
        cases vs with
        | none => trivial
        | some vs => exact ⟨ht _, fun _ => (only_discardAddresses (hr _) _).map⟩
      · trivial

/-- `BG96::resolveUrl`, with `ipstr`: the caller's array, of the size. -/
def resolveUrl (self : BG96) (name : String) (size : Nat) : At (Bool × String) :=
  locked <| timed bg96Wait1s do
    let _ ← Parser.send ⟨"AT+QIDNSGIP=%d,\"%s\"", [.int self.contextID, .str name]⟩
    if ← recvOk then resolveAddress size else return (false, "")

/-- `BG96::getRSSI`. -/
def getRssi : At Int := do
  return match ← locked (peek ⟨"AT+CSQ", []⟩ ⟨"+CSQ: %d,%d\n", []⟩) with
    | some vs => intAt vs 0
    | none => 0

/-- `BG96::getIPAddress`. -/
def getIpAddress : At (Option String) :=
  locked do
    let r ←
      if ← Parser.send ⟨"AT+QIACT?", []⟩ then
        Parser.setTimeout 15000
        recvThenOk ⟨"+QIACT:%d,%d,%d,\"%16[^\"]\"", []⟩
      else pure none
    Parser.flush
    Parser.setTimeout atTimeout
    return r.map fun vs => strAt vs 3

/-- The places in `sn` of the characters that `BG96::getMACAddress` receives. -/
def macPlaces : List Nat :=
  [26, 25, 24, 23, 22, 21, 19, 18, 16, 15, 13, 12, 10, 9, 7, 6, 4, 3, 1, 0]

/-- The received characters in their places. -/
def storeMac (sn : List Char) (vs : List Value) : List Char :=
  (macPlaces.zipIdx.take vs.length).foldl
    (fun sn (place, i) => sn.set place (Char.ofNat (intAt vs i).toNat)) sn

/-- `BG96::getMACAddress`: the buffer `sn` after it. -/
def getMacAddress (sn : List Char) : At (List Char) :=
  locked do
    if ← Parser.send ⟨"AT+QCCID", []⟩ then
      let r ← Parser.recv ⟨"+QCCID: %c%c%c%c%c%c%c%c%c%c%c%c%c%c%c%c%c%c%c%c", []⟩
      let sn := storeMac sn (r.getD [])
      return ([2, 5, 8, 11, 14, 17].foldl (fun sn i => sn.set i ':') sn).set 20 '\x00'
    else return sn

/-- `BG96::isConnected`. -/
def isConnected : At Bool := do return (← getIpAddress).isSome

/-- `BG96::getError`, in its two forms: the error number and its description. -/
def getError : At (Option (Int × String)) := do
  return match ← locked (query ⟨"AT+QIGETERROR", []⟩ ⟨"+QIGETERROR: %d,%[^\\n]", []⟩) with
    | some vs => some (intAt vs 0, strAt vs 1)
    | none => none

/-- `BG96::getLatesSyncTime`: the time string that it takes apart. -/
def getLatesSyncTime : At (Option String) := do
  return match ← locked (timed 2000 (query ⟨"AT+QLTS=1", []⟩ ⟨"+QLTS: \"%[^\"]\"", []⟩)) with
    | some vs => some (strAt vs 0)
    | none => none

/-! ## Sockets -/

/-- `BG96::chkRxAvail`. -/
def chkRxAvail (id : Int) : At Bool :=
  locked <| timed 1000 do return (← Parser.recv ⟨"+QIURC: \"recv\",%d", [.int id]⟩).isSome

/-- `BG96::rxAvail`. -/
def rxAvail (id : Int) : At Int := do
  return match ← locked (peek ⟨"AT+QIRD=%d,0", [.int id]⟩ ⟨"+QIRD:%d,%d,%d", []⟩) with
    | some vs => intAt vs 0 - intAt vs 1
    | none => 0

/-- `BG96::recv`: its result, and the bytes stored at `data`. -/
def recv (id : Int) (cnt : Nat) : At (Int × List UInt8) := do
  let _ ← chkRxAvail id
  locked do
    match ← peek ⟨"AT+QIRD=%d,%d", [.int id, .int (toInt cnt)]⟩ ⟨"+QIRD:%d\r\n", []⟩ with
    | some vs =>
      if 0 < intAt vs 0 then
        let _ ← Parser.getc
        let (_, data) ← Parser.read (intAt vs 0)
        if ← recvOk then return (intAt vs 0, data) else return (nsapiErrorDeviceError, data)
      else return (intAt vs 0, [])
    | none => return (nsapiErrorDeviceError, [])

/-- The loop of `BG96::open` that discards the data of the socket. -/
def drain (id : Int) : Nat → At Unit
  | 0 => .stop
  | n + 1 => do
    let (cnt, _) ← recv id 20
    if cnt ≠ 0 then drain id n else return ()

/-- The command of `BG96::open`. -/
def qiopen (self : BG96) (type : Char) (id : Int) (addr : String) (port : Int) : Format :=
  ⟨"AT+QIOPEN=%d,%d,\"%s\",\"%s\",%d,0,0\r",
    [.int self.contextID, .int id, .str (if type = 'u' then "UDP" else "TCP"), .str addr, .int port]⟩

/-- The part of `BG96::open` that opens the socket. -/
def openLink (self : BG96) (type : Char) (id : Int) (addr : String) (port : Int) : At Bool :=
  locked <| timed bg96Timeout150s do
    if ← command (qiopen self type id addr port) then
      match ← Parser.recv ⟨"+QIOPEN: %d,%%d", [.int id]⟩ with
      | some vs => return intAt vs 0 = 0
      | none => return false
    else return false

/-- `BG96::open`. -/
def «open» (n : Nat) (self : BG96) (type : Char) (id : Int) (addr : String) (port : Int) :
    At Bool := do
  let ok ← openLink self type id addr port
  if ok then drain id n
  return ok

/-- `BG96::close`. -/
def close (id : Int) : At Bool :=
  locked (timed bg96Timeout150s (command ⟨"AT+QICLOSE=%d,%d", [.int id, .int bg96CloseTo]⟩))

/-- `BG96::send` of the `amount` bytes at `data`. `done` is the opposite of a success until
`SEND OK` is awaited. -/
def send (id : Int) (data : List UInt8) : At Bool :=
  locked <| timed bg96TxTimeout do
    let done := !(← Parser.send ⟨"AT+QISEND=%d,%ld", [.int id, .int data.length]⟩)
    let done ←
      if !done then
        if (← Parser.recv ⟨">", []⟩).isSome then pure (decide ((← Parser.write data) ≤ 0))
        else pure done
      else pure done
    if !done then return (← Parser.recv ⟨"SEND OK", []⟩).isSome else return done

end Bg96.Modem
