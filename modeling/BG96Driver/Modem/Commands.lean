import BG96Driver.Modem.Quoting

/-!
# The commands of the operations

* `Format.toText`: a command of a program, as it is printed.
* `Op.commands`: the commands with strings of an operation.
* `only_sends`: the program of an operation sends no other command with a string.
-/

namespace Bg96.Modem

open Program
open CString (Str)
open Scanf (bytes)

/-- The string of an argument. -/
def cstr (s : String) : Str := .upTo (bytes s)

/-- An argument of a format, as it is printed. -/
def Value.argument : Value → Argument
  | .int n => .int n
  | .str s => .str (cstr s)

/-- A format with its arguments, as it is printed. -/
def Format.toText (f : Format) : Text := ⟨f.text, f.args.map Value.argument⟩

/-- The commands with strings of an operation. -/
def Op.commands (self : BG96) : Op → List StringCommand
  | .configurePdpContext (some ctx) =>
    [.send (.configurePdpContext ctx.pdpId (cstr ctx.apn) (cstr ctx.username) (cstr ctx.password))]
  | .connect apn username password =>
    [.send (.connect self.contextID (cstr apn) (cstr username) (cstr password))]
  | .resolveUrl name _ => [.send (.resolveUrl self.contextID (cstr name))]
  | .open type id addr port => [.send (.open self.contextID id (type = 'u') (cstr addr) port)]
  | .fileExists filename => [.sprintf (.fileExists (cstr filename))]
  | .deleteFile filename => [.sprintf (.deleteFile (cstr filename))]
  | .sendFile content filename _ =>
    [.sprintf (.fileExists (cstr filename)), .sprintf (.deleteFile (cstr filename)),
      .sprintf (.sendFile (cstr filename) (content.length + 1))]
  | .configureCacertPath path sslctxId => [.sprintf (.configureCacertPath (cstr path) sslctxId)]
  | .configureClientCertPath path sslctxId =>
    [.sprintf (.configureClientCertPath (cstr path) sslctxId)]
  | .configurePrivkeyPath path sslctxId => [.sprintf (.configurePrivkeyPath (cstr path) sslctxId)]
  | .sslopen hostname port pdpCtx clientId sslctxId =>
    [.sprintf (.sslopen (cstr hostname) port pdpCtx clientId sslctxId)]
  | .mqttOpen hostname port => [.sprintf (.mqttOpen (cstr hostname) port)]
  | .mqttConnect sslctxId clientid username password _ =>
    [.sprintf (.mqttConnect sslctxId (cstr clientid) (cstr username) (cstr password))]
  | .mqttSubscribe mqttId topic qos msgId => [.send (.mqttSubscribe mqttId (cstr topic) qos msgId)]
  | .mqttUnsubscribe mqttId topic msgId => [.send (.mqttUnsubscribe mqttId (cstr topic) msgId)]
  | .mqttPublish mqttId msgId qos retain topic data =>
    [.send (.mqttPublish mqttId msgId qos retain (cstr topic) data.length)]
  | .fsFileSize filename => [.send (.fsFileSize (cstr filename))]
  | .fsDeleteFile filename => [.send (.fsDeleteFile (cstr filename))]
  | .fsUploadFile filename _ lsize => [.send (.fsUploadFile (cstr filename) lsize)]
  | .fsDownloadFile filename _ => [.send (.fsDownloadFile (cstr filename))]
  | .fsOpen filename mode => [.send (.fsOpen (cstr filename) mode)]
  | _ => []

/-- A command that is sent has no strings, or it is one of these, and accepted. -/
def Call.Sends (ks : List StringCommand) : Call → Prop
  | .send cmd => (∀ s, .str s ∉ cmd.args) ∨ ∃ k ∈ ks, k.Accepted ∧ cmd.toText = k.text
  | _ => True

section Sends

variable {α : Type} {ks : List StringCommand} {p : At α} {cmd pattern : Format}

theorem sends_of_mem {k : StringCommand} (hk : k ∈ ks) (haccepted : k.Accepted)
    (htext : cmd.toText = k.text) : (Call.send cmd).Sends ks := .inr ⟨k, hk, haccepted, htext⟩

theorem sends_locked (hp : Only True (Call.Sends ks) p) : Only True (Call.Sends ks) (locked p) :=
  only_locked trivial trivial hp

theorem sends_timed {ms : Int} (hp : Only True (Call.Sends ks) p) :
    Only True (Call.Sends ks) (timed ms p) := only_timed (fun _ => trivial) hp

theorem sends_recv : Only True (Call.Sends ks) (Parser.recv pattern) := only_recv trivial

theorem sends_recvOk : Only True (Call.Sends ks) recvOk := only_recvOk trivial

theorem sends_recvThenOk : Only True (Call.Sends ks) (recvThenOk pattern) :=
  only_recvThenOk trivial trivial

theorem sends_command (h : (Call.send cmd).Sends ks) : Only True (Call.Sends ks) (command cmd) :=
  only_command h trivial

theorem sends_query (h : (Call.send cmd).Sends ks) :
    Only True (Call.Sends ks) (query cmd pattern) := only_query h trivial trivial

theorem sends_peek (h : (Call.send cmd).Sends ks) :
    Only True (Call.Sends ks) (peek cmd pattern) := only_peek h trivial

theorem sends_recvInto {arrays : List (Nat × Nat)} :
    Only True (Call.Sends ks) (recvInto arrays pattern) := only_recvInto trivial trivial

theorem sends_queryInto {arrays : List (Nat × Nat)} (h : (Call.send cmd).Sends ks) :
    Only True (Call.Sends ks) (queryInto arrays cmd pattern) :=
  only_queryInto trivial h trivial trivial

theorem sends_sprintfCommand {size : Nat} {f : Format} :
    Only True (Call.Sends ks) (sprintfCommand size f) := only_sprintfCommand fun _ => trivial

theorem sends_connectData (h : (Call.send cmd).Sends ks) :
    Only True (Call.Sends ks) (connectData cmd) := (sends_peek h).map

theorem sends_tx2bg96 (h : (Call.send cmd).Sends ks) :
    Only True (Call.Sends ks) (tx2bg96 cmd) := sends_locked (sends_command h)

/-- A command without arguments. -/
theorem sends_nil {text : String} : (Call.send ⟨text, []⟩).Sends ks :=
  .inl fun _ => List.not_mem_nil

theorem sends_getError : Only True (Call.Sends ks) getError :=
  (sends_locked (sends_query sends_nil)).map

theorem sends_getErrorString (size : Nat) : Only True (Call.Sends ks) (getErrorString size) := by
  refine (sends_locked (sends_queryInto sends_nil)).bind fun vs => ?_
  cases vs with
  | none => trivial
  | some vs => exact (only_sprintf trivial).map

theorem sends_retry {started : Bool} {limit : Int} {p : At Bool}
    (hp : Only True (Call.Sends ks) p) (n : Nat) :
    Only True (Call.Sends ks) (retry started limit p n) := by
  induction n with
  | zero => trivial
  | succ n ih =>
    refine ⟨trivial, fun ms => only_ite.mpr ⟨fun _ => ?_, fun _ => trivial⟩⟩
    exact hp.bind fun ok => only_ite.mpr ⟨fun _ => trivial, fun _ => ih⟩

/-! ## The operations -/

theorem sends_getRev : Only True (Call.Sends ks) getRev := by
  refine sends_locked ((sends_tx2bg96 sends_nil).bind fun ok => only_ite.mpr ⟨fun _ => ?_, ?_⟩)
  · refine sends_recvThenOk.bind fun buf1 => ?_
    cases buf1 with
    | none => trivial
    | some buf1 => exact (sends_query sends_nil).bind fun buf2 => by cases buf2 <;> trivial
  · exact fun _ => trivial

theorem sends_bg96Ready (n : Nat) (self : BG96) : Only True (Call.Sends ks) (bg96Ready n self) :=
  sends_locked (sends_retry sends_recv.map n).map

theorem sends_startup (n : Nat) (self : BG96) : Only True (Call.Sends ks) (startup n self) :=
  (sends_bg96Ready n self).bind fun _ => only_ite.mpr ⟨fun _ => trivial, fun _ => trivial⟩

theorem sends_powerOnGnss (n : Nat) (self : BG96) :
    Only True (Call.Sends ks) (powerOnGnss n self) :=
  only_ite.mpr ⟨fun _ => trivial, fun _ => sends_startup n self⟩

theorem sends_getCsServiceStatus : Only True (Call.Sends ks) getCsServiceStatus := by
  refine sends_locked (sends_timed ⟨sends_nil, fun _ => sends_recvThenOk.bind fun vs => ?_⟩)
  cases vs <;> trivial

theorem sends_connectPdp (n : Nat) (self : BG96) (pdpId : Int) :
    Only True (Call.Sends ks) (connectPdp n self pdpId) := by
  have hqiact : (Call.send (qiact self)).Sends ks := .inl (by simp [qiact])
  exact sends_locked ((sends_retry (sends_tx2bg96 hqiact) n).bind fun done =>
    ⟨trivial, fun _ => trivial⟩)

theorem sends_connect (n : Nat) (self : BG96) (apn username password : String)
    (h : (Call.send (storeApn self apn username password)).Sends ks) :
    Only True (Call.Sends ks) (connect n self apn username password) := by
  have hregister : Only True (Call.Sends ks) register := by
    refine (sends_tx2bg96 sends_nil).bind fun ok => only_ite.mpr ⟨fun _ => ?_, fun _ => trivial⟩
    refine (sends_tx2bg96 sends_nil).bind fun _ => ?_
    refine (only_registrationLoop sends_nil trivial 255).bind fun registered => ?_
    refine only_ite.mpr ⟨fun _ => ?_, fun _ => trivial⟩
    refine (only_peekInto trivial sends_nil trivial).bind fun _ => ?_
    exact (sends_tx2bg96 sends_nil).map
  have hcheck : Only True (Call.Sends ks) (checkApn self apn username password) := by
    have hquery : (Call.send ⟨"AT+QICSGP=%d", [.int self.contextID]⟩).Sends ks := .inl (by simp)
    have hend (done : Bool) : Only True (Call.Sends ks) (if done then do
          let _ ← recvOk
          Parser.setTimeout atTimeout
          return true
        else do
          Parser.setTimeout atTimeout
          command (storeApn self apn username password)) :=
      only_ite.mpr ⟨fun _ => sends_recvOk.bind fun _ => ⟨trivial, fun _ => trivial⟩,
        fun _ => ⟨trivial, fun _ => sends_command h⟩⟩
    refine ⟨trivial, fun _ => ⟨hquery, fun sent => ?_⟩⟩
    cases sent with
    | false => exact hend true
    | true => exact sends_recvInto.bind fun vs => hend vs.isSome
  refine ⟨trivial, fun _ => ⟨trivial, fun _ => hregister.bind fun registered => ?_⟩⟩
  have hend (stored : Bool) : Only True (Call.Sends ks) (if stored then do
        unlock
        connectPdp n self self.contextID
      else return nsapiErrorDeviceError) :=
    only_ite.mpr ⟨fun _ => ⟨trivial, fun _ => sends_connectPdp n self self.contextID⟩,
      fun _ => trivial⟩
  cases registered with
  | false => exact hend true
  | true => exact hcheck.bind hend

theorem sends_getIpAddress : Only True (Call.Sends ks) getIpAddress := by
  refine sends_locked ⟨sends_nil, fun sent => ?_⟩
  have hend (r : Option (List Value)) : Only True (Call.Sends ks) (do
      Parser.flush
      Parser.setTimeout atTimeout
      return r.map fun vs => strAt vs 3) := ⟨trivial, fun _ => ⟨trivial, fun _ => trivial⟩⟩
  cases sent with
  | false => exact hend none
  | true => exact ⟨trivial, fun _ => sends_recvThenOk.bind hend⟩

theorem sends_recvData (id : Int) (cnt : Nat) : Only True (Call.Sends ks) (recv id cnt) := by
  refine (sends_locked (sends_timed sends_recv.map)).bind fun _ => ?_
  refine sends_locked ((sends_peek (.inl (by simp))).bind fun vs => ?_)
  cases vs with
  | none => trivial
  | some vs =>
    refine only_ite.mpr ⟨fun _ => ⟨trivial, fun _ => ⟨trivial, fun r => ?_⟩⟩, fun _ => trivial⟩
    exact sends_recvOk.bind fun _ => only_ite.mpr ⟨fun _ => trivial, fun _ => trivial⟩

theorem sends_open (n : Nat) (self : BG96) (type : Char) (id : Int) (addr : String) (port : Int)
    (h : (Call.send (qiopen self type id addr port)).Sends ks) :
    Only True (Call.Sends ks) (Modem.open n self type id addr port) := by
  have hlink : Only True (Call.Sends ks) (openLink self type id addr port) := by
    refine sends_locked (sends_timed ((sends_command h).bind fun ok => ?_))
    refine only_ite.mpr ⟨fun _ => sends_recv.bind fun vs => ?_, fun _ => trivial⟩
    cases vs <;> trivial
  have hdrain (n : Nat) : Only True (Call.Sends ks) (drain id n) := by
    induction n with
    | zero => trivial
    | succ n ih =>
      exact (sends_recvData id 20).bind fun r => only_ite.mpr ⟨fun _ => ih, fun _ => trivial⟩
  refine hlink.bind fun ok => only_ite.mpr ⟨fun _ => (hdrain n).map, fun _ => trivial⟩

theorem sends_resolveUrl (self : BG96) (name : String) (size : Nat)
    (h : (Call.send ⟨"AT+QIDNSGIP=%d,\"%s\"", [.int self.contextID, .str name]⟩).Sends ks) :
    Only True (Call.Sends ks) (resolveUrl self name size) := by
  refine sends_locked (sends_timed ⟨h, fun _ => sends_recvOk.bind fun ok => ?_⟩)
  refine only_ite.mpr ⟨fun _ => ?_, fun _ => trivial⟩
  exact only_resolveAddress size (fun _ => trivial) fun _ => trivial

theorem sends_getMacAddress (sn : List Char) : Only True (Call.Sends ks) (getMacAddress sn) :=
  sends_locked ⟨sends_nil, fun _ => only_ite.mpr
    ⟨fun _ => ⟨trivial, fun _ => trivial⟩, fun _ => trivial⟩⟩

theorem sends_send (id : Int) (data : List UInt8) : Only True (Call.Sends ks) (send id data) := by
  refine sends_locked (sends_timed ⟨.inl (by simp), fun sent => ?_⟩)
  cases sent with
  | false => trivial
  | true =>
    refine ⟨trivial, fun vs => ?_⟩
    cases vs with
    | none => exact ⟨trivial, fun _ => trivial⟩
    | some vs =>
      refine ⟨trivial, fun size => ?_⟩
      exact only_ite.mpr ⟨fun _ => ⟨trivial, fun _ => trivial⟩, fun _ => trivial⟩

theorem sends_fsUploadFile (filename : String) (data : List UInt8) (lsize : Nat)
    (h : (Call.send ⟨"AT+QFUPL=\"%s\",%u", [.str filename, .int lsize]⟩).Sends ks) :
    Only True (Call.Sends ks) (fsUploadFile filename data lsize) := by
  refine sends_locked (sends_timed ((sends_connectData h).bind fun ok => ?_))
  refine only_ite.mpr ⟨fun _ => ?_, fun _ => trivial⟩
  refine (only_putBytes (fun _ => trivial) data 0 fun _ => trivial).bind fun _ =>
    ⟨trivial, fun _ => sends_recv.bind fun vs => ?_⟩
  cases vs with
  | none => trivial
  | some vs => exact sends_recvOk.map

theorem sends_fsDownloadFile (filename : String) (filesize : Nat)
    (h : (Call.send ⟨"AT+QFDWL=\"%s\"", [.str filename]⟩).Sends ks) :
    Only True (Call.Sends ks) (fsDownloadFile filename filesize) := by
  refine sends_locked (sends_timed ((sends_connectData h).bind fun ok => ?_))
  refine only_ite.mpr ⟨fun _ => (only_getBytes trivial filesize).bind fun data => ?_,
    fun _ => trivial⟩
  refine ⟨trivial, fun _ => sends_recv.bind fun vs => ?_⟩
  cases vs with
  | none => trivial
  | some vs => exact only_ite.mpr ⟨fun _ => trivial, fun _ => trivial⟩

theorem sends_fsOpen (filename : String) (mode : Int)
    (h : (Call.send ⟨"AT+QFOPEN=\"%s\",%d", [.str filename, .int mode]⟩).Sends ks) :
    Only True (Call.Sends ks) (fsOpen filename mode) := by
  refine sends_locked ⟨h, fun _ => only_ite.mpr ⟨fun _ => ?_, fun _ => trivial⟩⟩
  exact sends_recvThenOk.bind fun vs => by cases vs <;> trivial

theorem sends_fsRead (fh : Int) (length : Nat) : Only True (Call.Sends ks) (fsRead fh length) := by
  refine sends_locked (sends_timed ((sends_connectData (.inl (by simp))).bind fun ok => ?_))
  refine only_ite.mpr
    ⟨fun _ => (only_getBytes trivial length).bind fun data => ?_, fun _ => trivial⟩
  exact sends_recvOk.bind fun _ => only_ite.mpr ⟨fun _ => trivial, fun _ => trivial⟩

theorem sends_fsWrite (fh : Int) (length : Nat) (data : List UInt8) :
    Only True (Call.Sends ks) (fsWrite fh length data) := by
  refine sends_locked (sends_timed ((sends_connectData (.inl (by simp))).bind fun ok => ?_))
  refine only_ite.mpr ⟨fun _ => ?_, fun _ => trivial⟩
  refine (only_putBytes (fun _ => trivial) data 0 fun _ => trivial).bind fun _ => ?_
  exact sends_recvOk.bind fun _ => only_ite.mpr ⟨fun _ => trivial, fun _ => trivial⟩

theorem sends_fileExists (filename : String)
    (h : (Call.send ⟨"AT+QFLST=\"%s\"", [.str filename]⟩).Sends ks) :
    Only True (Call.Sends ks) (fileExists filename) :=
  sends_sprintfCommand.bind fun _ => (sends_locked (sends_timed (sends_queryInto h))).map

theorem sends_deleteFile (filename : String) (h : (Call.send (qfdel filename)).Sends ks) :
    Only True (Call.Sends ks) (deleteFile filename) :=
  sends_sprintfCommand.bind fun _ => sends_locked (sends_command h)

theorem sends_sendFileKept (content : List UInt8) (filename : String) (overrideok : Bool)
    (hlist : (Call.send ⟨"AT+QFLST=\"%s\"", [.str filename]⟩).Sends ks)
    (hdelete : (Call.send (qfdel filename)).Sends ks)
    (hup : (Call.send ⟨"AT+QFUPL=\"%s\",%d",
      [.str filename, .int (content.length + 1)]⟩).Sends ks) :
    Only True (Call.Sends ks) (sendFileKept content filename overrideok) := by
  have hupload : Only True (Call.Sends ks) (uploadFile content filename) :=
    only_uploadFile trivial trivial (fun _ => trivial) hup (fun _ => trivial) fun _ => trivial
  refine (sends_fileExists filename hlist).bind fun found => ?_
  refine only_ite.mpr ⟨fun _ => only_ite.mpr ⟨fun _ => ?_, fun _ => trivial⟩,
    fun _ => hupload.map⟩
  refine (sends_deleteFile filename hdelete).bind fun deleted => ?_
  exact only_ite.mpr ⟨fun _ => hupload.map, fun _ => trivial⟩

theorem sends_configureCacert (path : String) (sslctxId : Int)
    (h : (Call.send ⟨"AT+QSSLCFG=\"cacert\",%d,\"%s\"", [.int sslctxId, .str path]⟩).Sends ks) :
    Only True (Call.Sends ks) (configureCacert path sslctxId) := by
  refine sends_locked (sends_timed ((sends_command h).bind fun ok => ?_))
  refine only_ite.mpr ⟨fun _ => trivial, fun _ => sends_getError.bind fun err => ?_⟩
  exact (sends_command sends_nil).map

theorem sends_sslopen (hostname : String) (port pdpCtx clientId sslctxId : Int)
    (h : ¬ (clientId < 0 ∨ 11 < clientId) → ¬ (pdpCtx < 1 ∨ 11 < pdpCtx) →
      (Call.send (qsslopen hostname port pdpCtx clientId sslctxId)).Sends ks) :
    Only True (Call.Sends ks) (sslopen hostname port pdpCtx clientId sslctxId) := by
  refine only_ite.mpr ⟨fun _ => trivial, fun hclient => ?_⟩
  refine only_ite.mpr ⟨fun _ => trivial, fun hpdp => ?_⟩
  refine sends_locked (sends_timed ((sends_command (h hclient hpdp)).bind fun ok => ?_))
  refine only_ite.mpr ⟨fun _ => sends_recv.bind fun vs => ?_, fun _ => trivial⟩
  cases vs <;> trivial

theorem sends_sslsend (clientId : Int) (data : List UInt8) :
    Only True (Call.Sends ks) (sslsend clientId data) := by
  have hcmd : (Call.send (qsslsend clientId data)).Sends ks := .inl (by simp [qsslsend])
  refine sends_locked (sends_timed ((sends_peek hcmd).bind fun vs => ?_))
  cases vs with
  | none => exact sends_recv.map
  | some vs => exact ⟨trivial, fun _ => sends_recv.map⟩

theorem sends_sslsendTimeout (clientId : Int) (data : List UInt8) (timeout : Int) :
    Only True (Call.Sends ks) (sslsendTimeout clientId data timeout) := by
  have hcmd : (Call.send (qsslsend clientId data)).Sends ks := .inl (by simp [qsslsend])
  refine sends_locked (sends_timed ⟨hcmd, fun _ => sends_recv.bind fun vs => ?_⟩)
  cases vs with
  | none => trivial
  | some vs => exact ⟨trivial, fun _ => sends_recv.map⟩

theorem sends_sslrecv (clientId : Int) (cnt : Nat) :
    Only True (Call.Sends ks) (sslrecv clientId cnt) := by
  refine (sends_locked (sends_timed sends_recv.map)).bind fun _ => ?_
  refine sends_locked (sends_timed ((sends_peek (.inl (by simp))).bind fun vs => ?_))
  cases vs with
  | none => trivial
  | some vs => exact only_ite.mpr ⟨fun _ => ⟨trivial, fun r => sends_recvOk.map⟩, fun _ => trivial⟩

/-- The shape of `mqttOpen` and `mqttConnect`. -/
theorem sends_branches {size : Nat} {ms : Int} {f : Option (List Value) → α} {g : Option Int → α}
    (h : (Call.send cmd).Sends ks) :
    Only True (Call.Sends ks) (do
      sprintfCommand size cmd
      lock
      Parser.setTimeout ms
      if ← command cmd then
        let r ← Parser.recv pattern
        Parser.setTimeout atTimeout
        unlock
        return f r
      else
        Parser.setTimeout atTimeout
        unlock
        return g (← getErrorString 15)) := by
  refine sends_sprintfCommand.bind fun _ => ?_
  refine ⟨trivial, fun _ => ⟨trivial, fun _ => (sends_command h).bind fun ok => ?_⟩⟩
  refine only_ite.mpr ⟨fun _ => sends_recv.bind fun r => ?_, fun _ => ?_⟩
  · exact ⟨trivial, fun _ => ⟨trivial, fun _ => trivial⟩⟩
  · exact ⟨trivial, fun _ => ⟨trivial, fun _ => (sends_getErrorString 15).map⟩⟩

theorem sends_mqttPublish (mqttId msgId qos retain : Int) (topic : String) (data : List UInt8)
    (h : ¬ maxPublishMsgSize ≤ data.length →
      (Call.send (qmtpub mqttId msgId qos retain topic)).Sends ks) :
    Only True (Call.Sends ks) (mqttPublish mqttId msgId qos retain topic data) := by
  refine only_ite.mpr ⟨fun _ => trivial, fun hdata => ?_⟩
  refine ⟨trivial, fun _ => ⟨trivial, fun _ => (sends_peek (h hdata)).bind fun vs => ?_⟩⟩
  have hdata : Only True (Call.Sends ks) (publishData data) :=
    ⟨trivial, fun _ => ⟨trivial, fun _ => only_ite.mpr ⟨fun _ => sends_recv.map,
      fun _ => trivial⟩⟩⟩
  refine only_ite.mpr ⟨fun _ => hdata.bind fun rc => ?_, fun _ => trivial⟩
  exact ⟨trivial, fun _ => ⟨trivial, fun _ => trivial⟩⟩

theorem sends_configurePdpContext (self : BG96) (pdpCtx : Option PdpCtx)
    (h : ∀ ctx, pdpCtx = some ctx →
      (Call.send (qicsgp ctx.pdpId ctx.apn ctx.username ctx.password)).Sends ks) :
    Only True (Call.Sends ks) (configurePdpContext self pdpCtx) := by
  cases pdpCtx with
  | none => trivial
  | some ctx =>
    refine (sends_locked (sends_command (h ctx rfl))).bind fun ok => ?_
    exact only_ite.mpr ⟨fun _ => trivial, fun _ => trivial⟩

theorem sends_sendGenericCmd (cmd : Option String) (timeout : Int) :
    Only True (Call.Sends ks) (sendGenericCmd cmd timeout) := by
  cases cmd with
  | none => trivial
  | some cmd =>
    rw [sendGenericCmd_eq]
    exact (sends_locked (sends_timed (sends_command sends_nil))).map

theorem sends_mqttCloseAck : Only True (Call.Sends ks) mqttCloseAck := by
  refine sends_locked ((sends_command sends_nil).bind fun ok => ?_)
  exact only_ite.mpr ⟨fun _ => sends_recv.map, fun _ => trivial⟩

end Sends

/-- The program of an operation sends no command with a string but those of the operation, and these
only if it accepts the arguments. -/
theorem only_sends (n : Nat) (self : BG96) (op : Op) :
    Only True (Call.Sends (op.commands self)) (op.prog n self) := by
  have hsingle {k : StringCommand} {cmd : Format} (haccepted : k.Accepted)
      (htext : cmd.toText = k.text) : (Call.send cmd).Sends [k] :=
    sends_of_mem (List.mem_singleton.mpr rfl) haccepted htext
  cases op with
  | startup => exact (sends_startup n self).map
  | powerOnGnss => exact (sends_powerOnGnss n self).map
  | connect apn username password =>
    exact Only.map (sends_connect n self _ _ _ (hsingle trivial rfl))
  | connectPdp => exact (sends_connectPdp n self _).map
  | «open» type id addr port =>
    refine Only.map (sends_open n self type id addr port (hsingle trivial ?_))
    by_cases htype : type = 'u' <;>
      simp [StringCommand.text, SendCommand.text, qiopen, Format.toText, Value.argument, htype,
        cstr]
  | disconnect =>
    exact (sends_locked (sends_timed (sends_tx2bg96 (.inl (by simp))))).map
  | getRev => exact sends_getRev.map
  | getError => exact sends_getError.map
  | getCsServiceStatus => exact sends_getCsServiceStatus.map
  | getIpAddress => exact sends_getIpAddress.map
  | isConnected => exact sends_getIpAddress.map.map
  | getMacAddress => exact (sends_getMacAddress _).map
  | send => exact (sends_send _ _).map
  | recv => exact (sends_recvData _ _).map
  | resolveUrl => exact Only.map (sends_resolveUrl self _ _ (hsingle trivial rfl))
  | configurePdpContext pdpCtx =>
    refine Only.map (sends_configurePdpContext self pdpCtx fun ctx hctx => ?_)
    subst hctx
    exact hsingle trivial rfl
  | sendGenericCmd => exact (sends_sendGenericCmd _ _).map
  | fileExists => exact Only.map (sends_fileExists _ (hsingle trivial rfl))
  | deleteFile => exact Only.map (sends_deleteFile _ (hsingle trivial rfl))
  | sendFile content filename overrideok =>
    refine Only.map (sends_sendFileKept content filename overrideok ?_ ?_ ?_)
    · exact sends_of_mem (.head _) trivial rfl
    · exact sends_of_mem (.tail _ (.head _)) trivial rfl
    · exact sends_of_mem (.tail _ (.tail _ (.head _))) trivial rfl
  | configureCacertPath => exact Only.map (sends_configureCacert _ _ (hsingle trivial rfl))
  | sslopen hostname port pdpCtx clientId sslctxId =>
    exact Only.map (sends_sslopen _ _ _ _ _ fun hclient hpdp => hsingle ⟨hclient, hpdp⟩ rfl)
  | sslsend => exact (sends_sslsend _ _).map
  | sslsendTimeout => exact (sends_sslsendTimeout _ _ _).map
  | sslrecv => exact (sends_sslrecv _ _).map
  | mqttOpen => exact Only.map (sends_branches (hsingle trivial rfl))
  | mqttConnect => exact Only.map (sends_branches (hsingle trivial rfl))
  | mqttClose => exact sends_mqttCloseAck.map
  | mqttPublish mqttId msgId qos retain topic data =>
    exact Only.map (sends_mqttPublish _ _ _ _ _ _ fun hdata => hsingle hdata rfl)
  | fsUploadFile => exact Only.map (sends_fsUploadFile _ _ _ (hsingle trivial rfl))
  | fsDownloadFile => exact Only.map (sends_fsDownloadFile _ _ (hsingle trivial rfl))
  | fsOpen => exact Only.map (sends_fsOpen _ _ (hsingle trivial rfl))
  | fsRead => exact (sends_fsRead _ _).map
  | fsWrite => exact (sends_fsWrite _ _ _).map
  | getSimStatus | close | sslclose =>
    exact (sends_locked (sends_timed (sends_command (.inl (by simp))))).map
  | mqttSubscribe | mqttUnsubscribe | fsDeleteFile =>
    exact Only.map (Only.map (sends_locked (sends_timed (sends_command (hsingle trivial rfl)))))
  | fsTruncate | fsClose =>
    exact (sends_locked (sends_timed (sends_command (.inl (by simp))))).map.map
  | startGnss | stopGnss => exact (sends_locked (sends_command sends_nil)).map
  | configureClientCertPath | configurePrivkeyPath =>
    exact Only.map (Only.map (sends_locked (sends_command (hsingle trivial rfl))))
  | mqttDisconnect | fsSeek => exact (sends_locked (sends_command (.inl (by simp)))).map.map
  | fsFileSize =>
    exact Only.map (Only.map (sends_locked (sends_timed (sends_queryInto (hsingle trivial rfl)))))
  | getLatesSyncTime | fsSize | fsNfiles =>
    exact (sends_locked (sends_timed (sends_query sends_nil))).map.map
  | getRssi | rxAvail | fsGetOffset =>
    exact (sends_locked (sends_peek (.inl (by simp)))).map.map
  | isGnssOn | updateGnssLoc | sslClientStatus =>
    exact (sends_locked (sends_timed (sends_peek (.inl (by simp))))).map.map
  | chkRxAvail | sslChkRxAvail => exact (sends_locked (sends_timed sends_recv.map)).map
  | mqttRecv | mqttCheckAvail => exact (sends_locked (sends_timed sends_recv)).map.map
  | getGnssLoc => exact Only.map (sends_locked (only_ret self.gnssLoc))
  | readable | writeable | doDebug => exact ⟨trivial, fun _ => trivial⟩
  | reset | powerDown | setContext | isPowerOn | powerOffGnss | configureGnss => trivial

end Bg96.Modem
