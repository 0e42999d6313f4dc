import BG96Driver.Modem.Network

/-!
# `BG96`: MQTT and the location

* `mqttOpen`, `mqttConnect`, `mqttSubscribe`, `mqttPublish`, ...: the MQTT client of the module.
* `startGnss`, `updateGnssLoc`, ...: the location.
* `sendGenericCmd`: a command of the caller.
-/

namespace Bg96.Modem

/-! ## MQTT -/

/-- The command of `BG96::mqtt_open`. -/
def qmtopen (hostname : String) (port : Int) : Format :=
  ⟨"AT+QMTOPEN=%d,\"%s\",%d", [.int 0, .str hostname, .int port]⟩

/-- `BG96::getError(char*)`: the error number that it prints into an array of the size, and that is
read back from there. The array `lstr` has 40 characters. -/
def getErrorString (size : Nat) : At (Option Int) := do
  match ← locked (queryInto [(1, 40)] ⟨"AT+QIGETERROR", []⟩ ⟨"+QIGETERROR: %d,%[^\\n]", []⟩) with
  | some vs =>
    sprintf size ⟨"Error:%d", [.int (intAt vs 0)]⟩
    return some (intAt vs 0)
  | none => return none

/-- `BG96::mqtt_open`, with whether the command was acknowledged. The arrays `cmd` and `errstring`
have 80 and 15 characters. -/
def mqttOpenAck (hostname : String) (port : Int) : At (Bool × Int) := do
  sprintfCommand 80 (qmtopen hostname port)
  lock
  Parser.setTimeout 10000
  if ← command (qmtopen hostname port) then
    let r ← Parser.recv ⟨"+QMTOPEN: %d,%d\r\n", []⟩
    Parser.setTimeout atTimeout
    unlock
    return (true, r.elim (-1) fun vs => intAt vs 1)
  else
    Parser.setTimeout atTimeout
    unlock
    return (false, (← getErrorString 15).getD (-1))

/-- `BG96::mqtt_open`. -/
def mqttOpen (hostname : String) (port : Int) : At Int := do
  return (← mqttOpenAck hostname port).2

/-- `BG96::mqtt_close`, with whether the command was acknowledged. -/
def mqttCloseAck : At (Bool × Int) :=
  locked do
    if ← command ⟨"AT+QMTCLOSE=0", []⟩ then
      let r ← Parser.recv ⟨"+QMTCLOSE: %d,%d\r\n", []⟩
      return (true, r.elim (-1) fun vs => intAt vs 1)
    else return (false, nsapiErrorTimeout)

/-- `BG96::mqtt_close`. -/
def mqttClose : At Int := do return (← mqttCloseAck).2

/-- `BG96::send_generic_cmd`; `none` is `NULL`. -/
def sendGenericCmd (cmd : Option String) (timeout : Int) : At Int :=
  match cmd with
  | none => return nsapiErrorParameter
  | some cmd => do
    let rc : Int := if ← locked (timed timeout (command ⟨cmd, []⟩)) then 1 else 0
    if rc < 0 then return (← getError).elim rc Prod.fst else return rc

/-- `ConnectResult`, with what is left of it when it is not set. -/
structure ConnectResult where
  result : Int
  rc : Int
  deriving DecidableEq

/-- The command of `BG96::mqtt_connect`. -/
def qmtconn (sslctxId : Int) (clientid username password : String) : Format :=
  ⟨"AT+QMTCONN=%d,\"%s\",\"%s\",\"%s\"",
    [.int sslctxId, .str clientid, .str username, .str password]⟩

/-- `BG96::mqtt_connect`, with `result` after it. The arrays `cmd` and `errstring` have 256 and 15
characters. -/
def mqttConnect (sslctxId : Int) (clientid username password : String) (result : ConnectResult) :
    At (Bool × ConnectResult) := do
  sprintfCommand 256 (qmtconn sslctxId clientid username password)
  lock
  Parser.setTimeout 45000
  if ← command (qmtconn sslctxId clientid username password) then
    let r ← Parser.recv ⟨"+QMTCONN:%d,%d,%d", []⟩
    Parser.setTimeout atTimeout
    unlock
    return (true, r.elim result fun vs => ⟨intAt vs 1, intAt vs 2⟩)
  else
    Parser.setTimeout atTimeout
    unlock
    return (false, ⟨-1, (← getErrorString 15).getD result.rc⟩)

/-- `BG96::mqtt_disconnect`. -/
def mqttDisconnect (mqttId : Int) : At Int := do
  return if ← locked (command ⟨"AT+QMTDISC=%d", [.int mqttId]⟩) then nsapiErrorOk else -1

/-- `BG96::mqtt_subscribe`. -/
def mqttSubscribe (mqttId : Int) (topic : String) (qos msgId : Int) : At Int := do
  return if ← locked (timed 15000
      (command ⟨"AT+QMTSUB=%d,%d,\"%s\",%d", [.int mqttId, .int msgId, .str topic, .int qos]⟩)) then
    nsapiErrorOk
  else -1

/-- `BG96::mqtt_unsubscribe`. -/
def mqttUnsubscribe (mqttId : Int) (topic : String) (msgId : Int) : At Int := do
  return if ← locked (timed 15000
      (command ⟨"AT+QMTUNS=%d,%d,\"%s\"", [.int mqttId, .int msgId, .str topic]⟩)) then
    nsapiErrorOk
  else -1

/-- `BG96_MQTT_CLIENT_MAX_PUBLISH_MSG_SIZE`. -/
def maxPublishMsgSize : Int := 1548

/-- The command of `BG96::mqtt_publish`. -/
def qmtpub (mqttId msgId qos retain : Int) (topic : String) : Format :=
  ⟨"AT+QMTPUB=%d,%d,%d,%d,\"%s\"", [.int mqttId, .int msgId, .int qos, .int retain, .str topic]⟩

/-- The part of `BG96::mqtt_publish` after the prompt, with what it leaves in `rc`. The result of
the first `write` is overwritten by that of the second one. -/
def publishData (data : List UInt8) : At Int := do
  let _ ← Parser.write data
  let sent ← Parser.write [0x1A]
  if sent ≠ 0 then
    return match ← Parser.recv ⟨"+QMTPUB: %d,%d,%d", []⟩ with
      | some vs => if intAt vs 2 = 0 then 1 else -1
      | none => -1
  else return -1

/-- `BG96::mqtt_publish` of the `amount` bytes at `data`. -/
def mqttPublish (mqttId msgId qos retain : Int) (topic : String) (data : List UInt8) : At Int :=
  if maxPublishMsgSize ≤ data.length then return -1
  else do
    lock
    Parser.setTimeout bg96Timeout60s
    if (← peek (qmtpub mqttId msgId qos retain topic) ⟨">", []⟩).isSome then
      let rc ← publishData data
      Parser.setTimeout atTimeout
      unlock
      return rc
    else return -1

/-- The line of a received message. -/
def qmtrecv : Format := ⟨"+QMTRECV: %d,%d,\"%256[^\"]\",%s\n", []⟩

/-- `BG96::mqtt_checkAvail`: the topic and the payload as they are received, if the message is for
the client. -/
def mqttCheckAvail (mqttId : Int) : At (Option (String × String)) := do
  return match ← locked (timed 1000 (Parser.recv qmtrecv)) with
    | some vs => if intAt vs 0 = mqttId then some (strAt vs 2, strAt vs 3) else none
    | none => none

/-- `BG96::mqtt_recv`. -/
def mqttRecv (mqttId : Int) : At (Option (String × String)) := mqttCheckAvail mqttId

/-! ## The location -/

/-- `BG96::isPowerOn`. -/
def isPowerOn (self : BG96) : Bool := self.vbat3v8En && self.bg96Pwrkey

/-- `BG96::powerOnGNSS`. -/
def powerOnGnss (n : Nat) (self : BG96) : At (BG96 × Bool) := do
  if isPowerOn self then return (self, true)
  else
    let (self, ready) ← bg96Ready n self
    if ready then return (self, configureGnss) else return (self, false)

/-- `BG96::powerOffGNSS`. -/
def powerOffGnss (self : BG96) : BG96 := powerDown self

/-- `BG96::startGNSS`. -/
def startGnss : At Bool := locked (command ⟨"AT+QGPS=1", []⟩)

/-- `BG96::stopGNSS`. -/
def stopGnss : At Bool := locked (command ⟨"AT+QGPSEND", []⟩)

/-- `BG96::isGNSSOn`. -/
def isGnssOn : At Int := do
  return match ← locked (timed bg96Wait1s (peek ⟨"AT+QGPS?", []⟩ ⟨"+QGPS: %d", []⟩)) with
    | some vs => intAt vs 0
    | none => -1

/-- `BG96::updateGNSSLoc`. -/
def updateGnssLoc (self : BG96) : At (BG96 × Bool) := do
  return match ← locked (timed 3000 (peek ⟨"AT+QGPSLOC=2", []⟩ ⟨"+QGPSLOC: %s\n", []⟩)) with
    | some vs => ({ self with gnssLoc := some (strAt vs 0) }, true)
    | none => (self, false)

/-- `BG96::getGNSSLoc`, in its two forms. -/
def getGnssLoc (self : BG96) : At (Option String) := locked (return self.gnssLoc)

end Bg96.Modem
