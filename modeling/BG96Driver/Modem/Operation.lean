import BG96Driver.Modem.Broker
import BG96Driver.Modem.Files

/-!
# The operations of `BG96`

* `Op`: a call of a public operation of `BG96`, with its arguments.
* `Op.prog`: its program, with the object after it, and whether it reports a success that rests on a
  received `OK`.
-/

namespace Bg96.Modem

open Program

/-- A call of a public operation. -/
inductive Op where
  | startup
  | getSimStatus
  | getCsServiceStatus
  | reset
  | powerDown
  | connect (apn username password : String)
  | connectPdp (pdpId : Int)
  | disconnect
  | getRssi
  | getIpAddress
  | getMacAddress (sn : List Char)
  | isConnected
  | open (type : Char) (id : Int) (addr : String) (port : Int)
  | send (id : Int) (data : List UInt8)
  | recv (id : Int) (cnt : Nat)
  | close (id : Int)
  | readable
  | writeable
  | resolveUrl (name : String) (size : Nat)
  | setContext (i : Int)
  | configurePdpContext (pdpCtx : Option PdpCtx)
  | doDebug (f : Int)
  | getRev
  | getError
  | rxAvail (id : Int)
  | chkRxAvail (id : Int)
  | isPowerOn
  | powerOnGnss
  | powerOffGnss
  | configureGnss
  | startGnss
  | stopGnss
  | isGnssOn
  | updateGnssLoc
  | getGnssLoc
  | getLatesSyncTime
  | sendGenericCmd (cmd : Option String) (timeout : Int)
  | fileExists (filename : String)
  | deleteFile (filename : String)
  | sendFile (content : List UInt8) (filename : String) (overrideok : Bool)
  | configureCacertPath (path : String) (sslctxId : Int)
  | configureClientCertPath (path : String) (sslctxId : Int)
  | configurePrivkeyPath (path : String) (sslctxId : Int)
  | sslopen (hostname : String) (port pdpCtx clientId sslctxId : Int)
  | sslsend (clientId : Int) (data : List UInt8)
  | sslsendTimeout (clientId : Int) (data : List UInt8) (timeout : Int)
  | sslChkRxAvail (clientId : Int)
  | sslrecv (clientId : Int) (cnt : Nat)
  | sslclose (clientId : Int)
  | sslClientStatus (clientId : Int)
  | mqttOpen (hostname : String) (port : Int)
  | mqttClose
  | mqttConnect (sslctxId : Int) (clientid username password : String) (result : ConnectResult)
  | mqttDisconnect (mqttId : Int)
  | mqttSubscribe (mqttId : Int) (topic : String) (qos msgId : Int)
  | mqttUnsubscribe (mqttId : Int) (topic : String) (msgId : Int)
  | mqttPublish (mqttId msgId qos retain : Int) (topic : String) (data : List UInt8)
  | mqttRecv (mqttId : Int)
  | mqttCheckAvail (mqttId : Int)
  | fsSize
  | fsNfiles
  | fsFileSize (filename : String)
  | fsDeleteFile (filename : String)
  | fsUploadFile (filename : String) (data : List UInt8) (lsize : Nat)
  | fsDownloadFile (filename : String) (filesize : Nat)
  | fsOpen (filename : String) (mode : Int)
  | fsRead (fh : Int) (length : Nat)
  | fsWrite (fh : Int) (length : Nat) (data : List UInt8)
  | fsSeek (fh : Int) (offset : Nat) (position : Int)
  | fsGetOffset (fh : Int)
  | fsTruncate (fh : Int) (offset : Nat)
  | fsClose (fh : Int)

variable {α : Type}

/-- The end of an operation that leaves the object as it is. A success is a result that satisfies
`success`. -/
def report (self : BG96) (success : α → Bool) (p : At α) : At (BG96 × Bool) := do
  let a ← p
  return (self, success a)

/-- The end of an operation whose result does not rest on a received `OK`. -/
def finish (self : BG96) (p : At α) : At (BG96 × Bool) := report self (fun _ => false) p

/-- The program of an operation. -/
def Op.prog (n : Nat) (self : BG96) : Op → At (BG96 × Bool)
  | .startup => do return ((← Modem.startup n self).1, false)
  | .getSimStatus => report self id Modem.getSimStatus
  | .getCsServiceStatus => report self id Modem.getCsServiceStatus
  | .reset => return (Modem.reset self, false)
  | .powerDown => return (Modem.powerDown self, false)
  | .connect apn username password =>
    report self (· = nsapiErrorOk) (Modem.connect n self apn username password)
  | .connectPdp pdpId => report self (· = nsapiErrorOk) (Modem.connectPdp n self pdpId)
  | .disconnect => report self id (Modem.disconnect self)
  | .getRssi => finish self Modem.getRssi
  | .getIpAddress => report self Option.isSome Modem.getIpAddress
  | .getMacAddress sn => finish self (Modem.getMacAddress sn)
  | .isConnected => report self id Modem.isConnected
  | .open type id addr port => report self (fun ok => ok) (Modem.open n self type id addr port)
  | .send id data => finish self (Modem.send id data)
  | .recv id cnt => report self (fun r => 0 < r.1) (Modem.recv id cnt)
  | .close id => report self (fun ok => ok) (Modem.close id)
  | .readable => finish self (.call .readable .ret)
  | .writeable => finish self (.call .writable .ret)
  | .resolveUrl name size => report self Prod.fst (Modem.resolveUrl self name size)
  | .setContext i => return ((Modem.setContext self i).1, false)
  | .configurePdpContext pdpCtx => do
    let (self, rc) ← Modem.configurePdpContext self pdpCtx
    return (self, rc ≠ -1)
  | .doDebug f => finish self (Modem.doDebug f)
  | .getRev => report self Option.isSome Modem.getRev
  | .getError => report self Option.isSome Modem.getError
  | .rxAvail id => finish self (Modem.rxAvail id)
  | .chkRxAvail id => finish self (Modem.chkRxAvail id)
  | .isPowerOn => return (self, false)
  | .powerOnGnss => do return ((← Modem.powerOnGnss n self).1, false)
  | .powerOffGnss => return (Modem.powerOffGnss self, false)
  | .configureGnss => return (self, false)
  | .startGnss => report self id Modem.startGnss
  | .stopGnss => report self id Modem.stopGnss
  | .isGnssOn => finish self Modem.isGnssOn
  | .updateGnssLoc => do return ((← Modem.updateGnssLoc self).1, false)
  | .getGnssLoc => finish self (Modem.getGnssLoc self)
  | .getLatesSyncTime => report self Option.isSome Modem.getLatesSyncTime
  | .sendGenericCmd cmd timeout => report self (· = 1) (Modem.sendGenericCmd cmd timeout)
  | .fileExists filename => report self id (Modem.fileExists filename)
  | .deleteFile filename => report self id (Modem.deleteFile filename)
  | .sendFile content filename overrideok =>
    report self Prod.fst (sendFileKept content filename overrideok)
  | .configureCacertPath path sslctxId => report self Prod.fst (configureCacert path sslctxId)
  | .configureClientCertPath path sslctxId =>
    report self (· = 1) (Modem.configureClientCertPath path sslctxId)
  | .configurePrivkeyPath path sslctxId =>
    report self (· = 1) (Modem.configurePrivkeyPath path sslctxId)
  | .sslopen hostname port pdpCtx clientId sslctxId =>
    report self id (Modem.sslopen hostname port pdpCtx clientId sslctxId)
  | .sslsend clientId data => finish self (Modem.sslsend clientId data)
  | .sslsendTimeout clientId data timeout =>
    finish self (Modem.sslsendTimeout clientId data timeout)
  | .sslChkRxAvail clientId => finish self (Modem.sslChkRxAvail clientId)
  | .sslrecv clientId cnt => finish self (Modem.sslrecv clientId cnt)
  | .sslclose clientId => report self id (Modem.sslclose clientId)
  | .sslClientStatus clientId => finish self (Modem.sslClientStatus clientId)
  | .mqttOpen hostname port => report self (fun r => r.1 && r.2 = 0) (mqttOpenAck hostname port)
  | .mqttClose => report self (fun r => r.1 && r.2 = 0) mqttCloseAck
  | .mqttConnect sslctxId clientid username password result =>
    report self Prod.fst (Modem.mqttConnect sslctxId clientid username password result)
  | .mqttDisconnect mqttId => report self (· = nsapiErrorOk) (Modem.mqttDisconnect mqttId)
  | .mqttSubscribe mqttId topic qos msgId =>
    report self (· = nsapiErrorOk) (Modem.mqttSubscribe mqttId topic qos msgId)
  | .mqttUnsubscribe mqttId topic msgId =>
    report self (· = nsapiErrorOk) (Modem.mqttUnsubscribe mqttId topic msgId)
  | .mqttPublish mqttId msgId qos retain topic data =>
    finish self (Modem.mqttPublish mqttId msgId qos retain topic data)
  | .mqttRecv mqttId => finish self (Modem.mqttRecv mqttId)
  | .mqttCheckAvail mqttId => finish self (Modem.mqttCheckAvail mqttId)
  | .fsSize => report self (fun r => r.1 = nsapiErrorOk) Modem.fsSize
  | .fsNfiles => report self (fun r => r.1 = nsapiErrorOk) Modem.fsNfiles
  | .fsFileSize filename => report self (fun r => r.1 = nsapiErrorOk) (Modem.fsFileSize filename)
  | .fsDeleteFile filename => report self (· = 0) (Modem.fsDeleteFile filename)
  | .fsUploadFile filename data lsize => finish self (Modem.fsUploadFile filename data lsize)
  | .fsDownloadFile filename filesize => finish self (Modem.fsDownloadFile filename filesize)
  | .fsOpen filename mode => report self (fun r => r.1 = nsapiErrorOk) (Modem.fsOpen filename mode)
  | .fsRead fh length => report self (fun r => r.1 = nsapiErrorOk) (Modem.fsRead fh length)
  | .fsWrite fh length data => report self (· = nsapiErrorOk) (Modem.fsWrite fh length data)
  | .fsSeek fh offset position => report self (· = nsapiErrorOk) (Modem.fsSeek fh offset position)
  | .fsGetOffset fh => finish self (Modem.fsGetOffset fh)
  | .fsTruncate fh offset => report self (· = nsapiErrorOk) (Modem.fsTruncate fh offset)
  | .fsClose fh => report self (· = nsapiErrorOk) (Modem.fsClose fh)

end Bg96.Modem
