import BG96Driver.Modem.Broker
import BG96Driver.Modem.Exchange
import BG96Driver.Tls.Socket

/-!
# `BG96MQTTClient`: the session with the broker

`open` and `connect` report what `mqtt_open` and `mqtt_connect` leave in a result code. A refused
`AT+QMTOPEN` leaves the number of the last error there, of whatever command, and a connection that
is not reported leaves what was in the memory of the `ConnectResult`.

* `MqttSession.open`, `MqttSession.connect`: the source's functions.
* `open_confirmed_iff`: a success of `open` was confirmed by the module if and only if a refused
  command does not come with the error number 0.
* `connect_accepted_iff`: a success of `connect` was reported by the module if and only if the
  report comes or the memory does not hold a success.
-/

namespace Bg96

open Program Modem
open Tls (BG96TLSSocket Chars setSocketId setRootCaCert setClientCertKey)

/-! ## The client -/

/-- `MQTTClientOptions`. A payload of a string is `none` if it is `NULL`. -/
structure MqttClientOptions where
  version : Int
  keepalive : Int
  timeout : Int
  timeoutNotice : Int
  retries : Int
  willFg : Int
  willQos : Int
  willRetain : Int
  willTopic : Option String
  willMsg : Option String
  cleansession : Int
  sslenable : Int
  deriving DecidableEq

/-- `BG96MQTTClientOptions_Initializer`. -/
def MqttClientOptions.initializer : MqttClientOptions where
  version := 4
  keepalive := 120
  timeout := 45
  timeoutNotice := 0
  retries := 3
  willFg := 0
  willQos := 0
  willRetain := 0
  willTopic := none
  willMsg := none
  cleansession := 1
  sslenable := 1

/-- `MQTTClient_Ctx`. -/
structure MqttClientCtx where
  pdpCtxId : Int
  sslCtxId : Int
  mqttCtxId : Int
  options : Option MqttClientOptions

/-- `MQTTNetwork_Ctx`. -/
structure MqttNetworkCtx where
  hostname : String
  port : Int
  caCert : Option Chars
  clientCert : Option Chars
  clientKey : Option Chars

/-- `MQTTConnect_Ctx`. -/
structure MqttConnectCtx where
  clientId : String
  username : String
  password : String

/-- The members of `BG96MQTTClient` that its session uses. -/
structure MqttSession where
  ctx : MqttClientCtx
  tls : BG96TLSSocket
  running : Bool

namespace MqttSession

/-- `BG96MQTTClient::BG96MQTTClient`. It leaves `_ctx.options` as it is in the memory. -/
def ctor (tls : BG96TLSSocket) (options : Option MqttClientOptions) : MqttSession where
  ctx := { pdpCtxId := 1, sslCtxId := 2, mqttCtxId := 0, options := options }
  tls := setSocketId tls 2
  running := false

/-- The result of a configuration command that is sent with `send_generic_cmd`. -/
def configure (cmd : String) : At Int := sendGenericCmd (some cmd) atTimeout

variable (self : MqttSession)

/-! ## Opening and connecting -/

/-- The part of `BG96MQTTClient::open` that sets up TLS. Its results are not looked at. -/
def setUpTls (network : MqttNetworkCtx) : At Unit := do
  let _ ← configure s!"AT+QSSLCFG=\"sslversion\",{self.ctx.sslCtxId},4"
  let _ ← configure s!"AT+QSSLCFG=\"seclevel\",{self.ctx.sslCtxId},1"
  let _ ← setRootCaCert self.tls network.caCert
  let _ ← setClientCertKey self.tls network.clientCert network.clientKey

/-- `BG96MQTTClient::open`; `none` is `NULL`. The error numbers differ in the debug output only. -/
def «open» : Option MqttNetworkCtx → At Int
  | none => return nsapiErrorDeviceError
  | some network =>
    match self.ctx.options with
    | none => return nsapiErrorDeviceError
    | some options => do
      if 0 < options.sslenable then self.setUpTls network
      let rc ← mqttOpen network.hostname network.port
      return if rc = 0 then nsapiErrorOk else nsapiErrorDeviceError

/-- What `BG96MQTTClient::connect` makes of the return code of the broker. -/
def connectError (rc : Int) : Int :=
  if rc = 4 then nsapiErrorAuthFailure
  else if rc = 2 then nsapiErrorAuthFailure
  else if rc = 3 then nsapiErrorConnectionTimeout
  else if rc = 1 then nsapiErrorUnsupported
  else if rc = 6 then nsapiErrorDeviceError
  else -1

/-- `BG96MQTTClient::connect`, where the memory of its `ConnectResult` holds `result`. -/
def connect (ctx : MqttConnectCtx) (result : ConnectResult) : At (MqttSession × Int) := do
  let (_, result) ←
    mqttConnect self.ctx.mqttCtxId ctx.clientId ctx.username ctx.password result
  if result.result = 0 ∧ result.rc = 0 then return ({ self with running := true }, nsapiErrorOk)
  else return (self, connectError result.rc)

/-! ## What is said -/

variable {self} {l said : List Exchange} {rc : Int} {network : MqttNetworkCtx}
  {cmd : Format}

/-- The number of the last error, where its text fits in the arrays. -/
theorem traces_getErrorString {size : Nat} {err : Option Int}
    (h : Traces (getErrorString size) l (some err)) :
    ∃ vs, QueryCase qigeterror qigeterrorReport (spoken l) vs ∧
      err = vs.map fun vs => intAt vs 0 := by
  obtain ⟨vs, l₁, l₂, rfl, hlocked, hprint⟩ := traces_bind_some.mp h
  obtain ⟨l', hspoken, hquery⟩ := traces_locked hlocked
  have hcase := traces_query (traces_queryInto hquery)
  rw [← hspoken] at hcase
  refine ⟨vs, ?_⟩
  cases vs with
  | none =>
    obtain ⟨rfl, ⟨⟩⟩ := traces_ret.mp hprint
    rw [List.append_nil]
    exact ⟨hcase, rfl⟩
  | some vs =>
    obtain ⟨_, l₃, l₄, rfl, hsprintf, hret⟩ := traces_bind_some.mp hprint
    obtain rfl := traces_sprintf hsprintf
    obtain ⟨rfl, ⟨⟩⟩ := traces_ret.mp hret
    rw [List.append_nil, List.append_nil]
    exact ⟨hcase, rfl⟩

/-- A command that a report of the module follows. Either it is acknowledged, and the report is
waited for, or the number of the last error is asked for. -/
theorem traces_reporting {α : Type} {size size' : Nat} {t : Int} {report : Format} {a : α}
    {onReport : Option (List Value) → α} {onError : Option Int → α}
    (h : Traces (show At α from do
      sprintfCommand size cmd
      lock
      Parser.setTimeout t
      if ← command cmd then
        let r ← Parser.recv report
        Parser.setTimeout atTimeout
        unlock
        return onReport r
      else
        Parser.setTimeout atTimeout
        unlock
        return onError (← getErrorString size')) l (some a)) :
    (∃ ok r, spoken l = [⟨.send cmd, true⟩, ⟨.recv okFormat, some ok⟩, ⟨.recv report, r⟩] ∧
      onReport r = a) ∨
    ∃ refusal query vs, spoken l = refusal ++ query ∧ CommandCase cmd refusal false ∧
      QueryCase qigeterror qigeterrorReport query vs ∧
      onError (vs.map fun vs => intAt vs 0) = a := by
  obtain ⟨-, hlock⟩ := traces_sprintfCommand.mp h
  obtain ⟨_, l, rfl, htimeout⟩ := traces_call.mp hlock
  obtain ⟨_, l, rfl, hbody⟩ := traces_call.mp htimeout
  rw [spoken_silent rfl, spoken_silent rfl]
  change Traces (command _ >>= _) _ _ at hbody
  obtain ⟨ok, l₁, l₂, rfl, h₁, h₂⟩ := traces_bind_some.mp hbody
  have hcommand := traces_command h₁
  rw [spoken_append]
  cases ok with
  | false =>
    obtain ⟨_, l₂, rfl, hunlock⟩ := traces_call.mp h₂
    obtain ⟨_, l₂, rfl, herror⟩ := traces_call.mp hunlock
    rw [spoken_silent rfl, spoken_silent rfl]
    obtain ⟨err, herr, rfl⟩ := traces_map_some.mp herror
    obtain ⟨vs, hquery, rfl⟩ := traces_getErrorString herr
    exact .inr ⟨_, _, vs, rfl, hcommand, hquery, rfl⟩
  | true =>
    generalize spoken l₁ = said at hcommand
    cases hcommand with
    | done ok =>
      obtain ⟨r, l₂, rfl, hset⟩ := traces_call.mp h₂
      obtain ⟨_, l₂, rfl, hunlock⟩ := traces_call.mp hset
      obtain ⟨_, l₂, rfl, hret⟩ := traces_call.mp hunlock
      obtain ⟨rfl, ⟨⟩⟩ := traces_ret.mp hret
      rw [spoken_cons rfl, spoken_silent rfl, spoken_silent rfl]
      exact .inl ⟨ok, r, rfl, rfl⟩

/-- The report of `AT+QMTOPEN`. -/
def qmtopenReport : Format := ⟨"+QMTOPEN: %d,%d\r\n", []⟩

/-- What is said in `mqtt_open`, and what it returns. -/
inductive MqttOpenCase (cmd : Format) : List Exchange → Int → Prop where
  | refused {refusal query : List Exchange} {vs : Option (List Value)}
    (h : CommandCase cmd refusal false) (hq : QueryCase qigeterror qigeterrorReport query vs) :
    MqttOpenCase cmd (refusal ++ query) (vs.elim (-1) fun vs => intAt vs 0)
  | acknowledged (ok : List Value) (report : Option (List Value)) : MqttOpenCase cmd
      [⟨.send cmd, true⟩, ⟨.recv okFormat, some ok⟩, ⟨.recv qmtopenReport, report⟩]
      (report.elim (-1) fun vs => intAt vs 1)

theorem traces_mqttOpen {hostname : String} {port : Int}
    (h : Traces (mqttOpen hostname port) l (some rc)) :
    MqttOpenCase (qmtopen hostname port) (spoken l) rc := by
  obtain ⟨r, hack, rfl⟩ := traces_map_some.mp h
  obtain ⟨ok, report, hspoken, rfl⟩ | ⟨_, _, vs, hspoken, hcommand, hquery, rfl⟩ :=
    traces_reporting hack
  · rw [hspoken]
    exact .acknowledged ok report
  · rw [hspoken]
    have hcase := MqttOpenCase.refused hcommand hquery
    cases vs <;> exact hcase

/-! ## What a success of `open` means -/

/-- At the end the module has acknowledged `AT+QMTOPEN`, and reported that the network is open. -/
def OpenConfirmed (cmd : Format) (said : List Exchange) : Prop :=
  ∃ ok report, [⟨.send cmd, true⟩, ⟨.recv okFormat, some ok⟩,
    ⟨.recv qmtopenReport, some report⟩] <:+ said ∧ intAt report 1 = 0

/-- At the end the module has answered that the last error has the number 0. -/
def EndsWithNoError (said : List Exchange) : Prop :=
  ∃ vs ok, [⟨.send qigeterror, true⟩, ⟨.recv qigeterrorReport, some vs⟩,
    ⟨.recv okFormat, some ok⟩] <:+ said ∧ intAt vs 0 = 0

/-- What a list ends with decides its last element. -/
theorem last_of_suffix {α : Type} {a b c d : α} {m : List α} (h : [a, b, c] <:+ m ++ [d]) :
    d = c := by
  obtain ⟨t, ht⟩ := h
  have hlast := congrArg List.getLast? ht
  simpa using hlast.symm

/-- What does not end with an answer to the last call of `getError` does not end with an error
number. -/
theorem not_endsWithNoError {e : Exchange} (he : ∀ ok, e ≠ ⟨.recv okFormat, some ok⟩) :
    ¬ EndsWithNoError (said ++ [e]) := by
  rintro ⟨vs, ok, hsuffix, -⟩
  exact he ok (last_of_suffix hsuffix)

/-- What ends with the error number. -/
theorem endsWithNoError_iff {vs ok : List Value} :
    EndsWithNoError (said ++ [⟨.send qigeterror, true⟩, ⟨.recv qigeterrorReport, some vs⟩,
      ⟨.recv okFormat, some ok⟩]) ↔ intAt vs 0 = 0 := by
  constructor
  · rintro ⟨vs', ok', ⟨t, ht⟩, hvs⟩
    obtain ⟨-, heq⟩ := List.append_inj' ht rfl
    obtain rfl : vs' = vs := by simpa using (List.cons.inj (List.cons.inj heq).2).1
    exact hvs
  · exact fun hvs => ⟨vs, ok, List.suffix_append .., hvs⟩

/-- What ends with an answer to `getError` does not end with a report of `AT+QMTOPEN`. -/
theorem not_openConfirmed (said : List Exchange) {ok : List Value} :
    ¬ OpenConfirmed cmd (said ++ [⟨.recv okFormat, some ok⟩]) := by
  rintro ⟨ok', report, hsuffix, -⟩
  have hcall : Modem.Call.recv okFormat = .recv qmtopenReport :=
    congrArg Sigma.fst (last_of_suffix hsuffix)
  exact absurd hcall (by decide)

/-- After whatever was said before, a success of `mqtt_open` was confirmed, except if the module
answers that there is no error. -/
theorem MqttOpenCase.confirmed_iff (h : MqttOpenCase cmd said rc) (before : List Exchange) :
    (rc = 0 → OpenConfirmed cmd (before ++ said)) ↔ ¬ EndsWithNoError (before ++ said) := by
  cases h with
  | @refused refusal query vs hrefusal hquery =>
    rw [← List.append_assoc]
    generalize before ++ refusal = before
    have hfailed (hrc : (-1 : Int) = 0) : OpenConfirmed cmd (before ++ query) :=
      absurd hrc (by decide)
    cases hquery with
    | unsent => exact iff_of_true hfailed (not_endsWithNoError fun _ => by rintro ⟨⟩)
    | unanswered =>
      refine iff_of_true hfailed ?_
      rw [List.append_cons]
      refine not_endsWithNoError fun ok heq => ?_
      have hcall : Modem.Call.recv qigeterrorReport = .recv okFormat := congrArg Sigma.fst heq
      exact absurd hcall (by decide)
    | unfinished vs =>
      refine iff_of_true hfailed ?_
      rw [List.append_cons, List.append_cons]
      exact not_endsWithNoError fun _ => by rintro ⟨⟩
    | done vs ok =>
      rw [endsWithNoError_iff]
      constructor
      · intro hconfirmed hvs
        have hend := hconfirmed hvs
        rw [List.append_cons, List.append_cons] at hend
        exact not_openConfirmed _ hend
      · exact fun hvs hrc => absurd hrc hvs
  | acknowledged ok report =>
    have hend : ¬ EndsWithNoError (before ++ [⟨.send cmd, true⟩, ⟨.recv okFormat, some ok⟩,
        ⟨.recv qmtopenReport, report⟩]) := by
      rw [List.append_cons, List.append_cons]
      refine not_endsWithNoError fun ok heq => ?_
      have hcall : Modem.Call.recv qmtopenReport = .recv okFormat := congrArg Sigma.fst heq
      exact absurd hcall (by decide)
    refine iff_of_true (fun hrc => ?_) hend
    cases report with
    | none => exact absurd hrc (by decide)
    | some report => exact ⟨ok, report, List.suffix_append .., hrc⟩

/-- **Opening.** A success of `open` was confirmed by the module if and only if the call does not
end with the answer that the last error has the number 0. -/
theorem open_confirmed_iff (h : Traces (self.open (some network)) l (some rc)) :
    (rc = nsapiErrorOk → OpenConfirmed (qmtopen network.hostname network.port) (spoken l)) ↔
      ¬ EndsWithNoError (spoken l) := by
  have hopened (before : List Exchange) {l' : List Exchange}
      (hopen : Traces (mqttOpen network.hostname network.port >>= fun rc =>
        .ret (if rc = 0 then nsapiErrorOk else nsapiErrorDeviceError)) l' (some rc)) :
      (rc = nsapiErrorOk → OpenConfirmed (qmtopen network.hostname network.port)
        (spoken (before ++ l'))) ↔ ¬ EndsWithNoError (spoken (before ++ l')) := by
    obtain ⟨result, hresult, rfl⟩ := traces_map_some.mp hopen
    rw [spoken_append, ← (traces_mqttOpen hresult).confirmed_iff]
    by_cases hzero : result = 0
    · rw [if_pos hzero]
      exact imp_congr_left (iff_of_true rfl hzero)
    · rw [if_neg hzero]
      exact imp_congr_left (iff_of_false (by decide) hzero)
  rw [MqttSession.open] at h
  split at h
  · -- without options nothing is said
    obtain ⟨rfl, ⟨⟩⟩ := traces_ret.mp h
    refine iff_of_true (fun hrc => absurd hrc (by decide)) ?_
    rintro ⟨_, _, hsuffix, -⟩
    cases List.suffix_nil.mp hsuffix
  · dsimp only at h
    split at h
    · obtain ⟨_, before, l', rfl, -, hopen⟩ := traces_bind_some.mp h
      exact hopened before hopen
    · exact hopened [] h

/-- A client whose options do not ask for TLS. -/
def plain : MqttSession :=
  ⟨⟨1, 2, 0, some { MqttClientOptions.initializer with sslenable := 0 }⟩, .ctor, false⟩

def broker : MqttNetworkCtx := ⟨"broker", 1883, none, none, none⟩

/-- What is said when `AT+QMTOPEN` is refused, and the last error has the number. -/
def refusedOpen (err : Int) : List Exchange :=
  [⟨.lock, ()⟩, ⟨.setTimeout 10000, ()⟩, ⟨.send (qmtopen "broker" 1883), true⟩,
    ⟨.recv okFormat, none⟩, ⟨.setTimeout atTimeout, ()⟩, ⟨.unlock, ()⟩, ⟨.lock, ()⟩,
    ⟨.send qigeterror, true⟩, ⟨.recv qigeterrorReport, some [.int err, .str "text"]⟩,
    ⟨.recv okFormat, some []⟩, ⟨.unlock, ()⟩]

theorem open_confirmed_iff_refused : ¬ EndsWithNoError (spoken (refusedOpen 1)) := by
  have h : Traces (plain.open (some broker)) (refusedOpen 1) (some nsapiErrorDeviceError) :=
    traces_iff_replay.mpr rfl
  exact (open_confirmed_iff h).mp fun hrc => absurd hrc (by decide)

/-- The last error is `Operate successfully`: the network counts as open. -/
theorem open_confirmed_iff_no_error : ¬ ∀ self network l rc,
    Traces (MqttSession.open self (some network)) l (some rc) → rc = nsapiErrorOk →
      OpenConfirmed (qmtopen network.hostname network.port) (spoken l) := by
  intro h
  have htrace : Traces (plain.open (some broker)) (refusedOpen 0) (some nsapiErrorOk) :=
    traces_iff_replay.mpr rfl
  exact not_openConfirmed [⟨.send (qmtopen "broker" 1883), true⟩, ⟨.recv okFormat, none⟩,
    ⟨.send qigeterror, true⟩, ⟨.recv qigeterrorReport, some [.int 0, .str "text"]⟩]
    (h _ _ _ _ htrace rfl)

/-! ## What a success of `connect` means -/

/-- The report of `AT+QMTCONN`. -/
def qmtconnReport : Format := ⟨"+QMTCONN:%d,%d,%d", []⟩

variable {self' : MqttSession} {ctx : MqttConnectCtx} {result result' : ConnectResult}

/-- What is said in `mqtt_connect`, and what it leaves in `result`. -/
inductive ConnectCase (cmd : Format) (result : ConnectResult) :
    List Exchange → ConnectResult → Prop where
  | refused {refusal query : List Exchange} {vs : Option (List Value)} {rc : Int}
    (h : CommandCase cmd refusal false) (hq : QueryCase qigeterror qigeterrorReport query vs) :
    ConnectCase cmd result (refusal ++ query) ⟨-1, rc⟩
  | unreported (ok : List Value) : ConnectCase cmd result
      [⟨.send cmd, true⟩, ⟨.recv okFormat, some ok⟩, ⟨.recv qmtconnReport, none⟩] result
  | reported (ok report : List Value) : ConnectCase cmd result
      [⟨.send cmd, true⟩, ⟨.recv okFormat, some ok⟩, ⟨.recv qmtconnReport, some report⟩]
      ⟨intAt report 1, intAt report 2⟩

theorem traces_mqttConnect {sslctxId : Int} {clientid username password : String} {ack : Bool}
    (h : Traces (mqttConnect sslctxId clientid username password result) l (some (ack, result'))) :
    ConnectCase (qmtconn sslctxId clientid username password) result (spoken l) result' := by
  obtain ⟨ok, report, hspoken, heq⟩ | ⟨_, _, _, hspoken, hcommand, hquery, ⟨⟩⟩ :=
    traces_reporting h
  · obtain rfl := congrArg Prod.snd heq
    rw [hspoken]
    cases report with
    | none => exact .unreported ok
    | some report => exact .reported ok report
  · rw [hspoken]
    exact .refused hcommand hquery

/-- The module has acknowledged `AT+QMTCONN`, and reported that the broker accepts the client. -/
def Accepted (cmd : Format) (said : List Exchange) : Prop :=
  ∃ ok report, said = [⟨.send cmd, true⟩, ⟨.recv okFormat, some ok⟩,
    ⟨.recv qmtconnReport, some report⟩] ∧ intAt report 1 = 0 ∧ intAt report 2 = 0

/-- The client counts as running if it is accepted, and the call fails if not. -/
def Connects (self : MqttSession) (cmd : Format) (said : List Exchange) (self' : MqttSession)
    (rc : Int) : Prop :=
  (Accepted cmd said → rc = nsapiErrorOk ∧ self'.running = true) ∧
    (¬ Accepted cmd said → rc < 0 ∧ self'.running = self.running)

theorem connectError_neg (rc : Int) : connectError rc < 0 := by
  unfold connectError
  split_ifs <;> decide

/-- With an answer of the broker, `result` says whether the client is accepted. Without one it is as
it was. -/
theorem ConnectCase.accepted_iff (h : ConnectCase cmd result said result') :
    (Accepted cmd said ↔ result' = ⟨0, 0⟩) ↔
      (⟨.recv qmtconnReport, none⟩ ∈ said → result ≠ ⟨0, 0⟩) := by
  cases h with
  | @refused refusal query vs rc hrefusal hquery =>
    refine iff_of_true (iff_of_false ?_ (by simp)) fun hmem => ?_
    · rintro ⟨ok, report, heq, -⟩
      cases hrefusal <;> simp at heq
    · have hne : qmtconnReport ≠ okFormat := by decide
      have hne' : qmtconnReport ≠ qigeterrorReport := by decide
      cases hrefusal <;> cases hquery <;> simp [hne, hne'] at hmem
  | unreported ok =>
    have hnot : ¬ Accepted cmd [⟨.send cmd, true⟩, ⟨.recv okFormat, some ok⟩,
        ⟨.recv qmtconnReport, none⟩] := by
      rintro ⟨ok', report, heq, -⟩
      simp at heq
    rw [iff_false_left hnot]
    exact ⟨fun hne _ => hne, fun hne => hne (by simp)⟩
  | reported ok report =>
    refine iff_of_true ?_ fun hmem => ?_
    · rw [ConnectResult.mk.injEq]
      constructor
      · rintro ⟨ok', report', heq, hreport⟩
        obtain ⟨-, rfl⟩ : ok = ok' ∧ report = report' := by simpa using heq
        exact hreport
      · exact fun hreport => ⟨ok, report, rfl, hreport⟩
    · have hne : qmtconnReport ≠ okFormat := by decide
      simp [hne] at hmem

/-- **Connecting.** The call does what the broker says, if and only if its answer comes or the
memory of the result does not hold a success. -/
theorem connect_accepted_iff (h : Traces (self.connect ctx result) l (some (self', rc))) :
    Connects self (qmtconn self.ctx.mqttCtxId ctx.clientId ctx.username ctx.password) (spoken l)
      self' rc ↔ (⟨.recv qmtconnReport, none⟩ ∈ spoken l → result ≠ ⟨0, 0⟩) := by
  obtain ⟨⟨ack, result'⟩, l₁, l₂, rfl, hconnect, hret⟩ := traces_bind_some.mp h
  dsimp only at hret
  split at hret
  · rename_i hzero
    obtain ⟨rfl, ⟨⟩⟩ := traces_ret.mp hret
    rw [List.append_nil, ← (traces_mqttConnect hconnect).accepted_iff]
    have hzero : result' = ⟨0, 0⟩ := by
      obtain ⟨r, rc⟩ := result'
      exact congrArg₂ ConnectResult.mk hzero.1 hzero.2
    rw [iff_true_right hzero]
    constructor
    · intro hconnects
      by_contra hnot
      exact absurd (hconnects.2 hnot).1 (by decide)
    · exact fun hack => ⟨fun _ => ⟨rfl, rfl⟩, fun hnot => absurd hack hnot⟩
  · rename_i hzero
    obtain ⟨rfl, ⟨⟩⟩ := traces_ret.mp hret
    rw [List.append_nil, ← (traces_mqttConnect hconnect).accepted_iff]
    have hzero : result' ≠ ⟨0, 0⟩ := by
      rintro rfl
      exact hzero ⟨rfl, rfl⟩
    rw [iff_false_right hzero]
    constructor
    · intro hconnects hack
      have hneg := connectError_neg result'.rc
      rw [(hconnects.1 hack).1] at hneg
      exact absurd hneg (by decide)
    · exact fun hnot => ⟨fun hack => absurd hack hnot, fun _ => ⟨connectError_neg _, rfl⟩⟩

/-- What is said when `AT+QMTCONN` is acknowledged, with the report of the module. -/
def connecting (report : Option (List Value)) : List Exchange :=
  [⟨.lock, ()⟩, ⟨.setTimeout 45000, ()⟩, ⟨.send (qmtconn 0 "id" "user" "secret"), true⟩,
    ⟨.recv okFormat, some []⟩, ⟨.recv qmtconnReport, report⟩, ⟨.setTimeout atTimeout, ()⟩,
    ⟨.unlock, ()⟩]

theorem connect_accepted_iff_reported :
    Connects plain (qmtconn 0 "id" "user" "secret")
      (spoken (connecting (some [.int 0, .int 0, .int 0]))) { plain with running := true } 0 := by
  have h : Traces (plain.connect ⟨"id", "user", "secret"⟩ ⟨0, 0⟩)
      (connecting (some [.int 0, .int 0, .int 0])) (some ({ plain with running := true }, 0)) :=
    traces_iff_replay.mpr rfl
  refine (connect_accepted_iff h).mpr fun hmem => ?_
  simp [connecting, spoken, Call.Spoken, show qmtconnReport ≠ okFormat by decide] at hmem

/-- The broker does not answer, and the memory holds zeros: the client counts as connected. -/
theorem connect_accepted_iff_silent : ¬ ∀ self ctx result l self' rc,
    Traces (MqttSession.connect self ctx result) l (some (self', rc)) →
      Connects self (qmtconn self.ctx.mqttCtxId ctx.clientId ctx.username ctx.password) (spoken l)
        self' rc := by
  intro h
  have htrace : Traces (plain.connect ⟨"id", "user", "secret"⟩ ⟨0, 0⟩) (connecting none)
      (some ({ plain with running := true }, 0)) := traces_iff_replay.mpr rfl
  have hnot : ¬ Accepted (qmtconn 0 "id" "user" "secret") (spoken (connecting none)) := by
    rintro ⟨ok, report, heq, -⟩
    simp [connecting, spoken, Call.Spoken] at heq
  exact absurd ((h _ _ _ _ _ _ htrace).2 hnot).1 (by decide)

end MqttSession

end Bg96
