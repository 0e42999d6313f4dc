import BG96Driver.Modem.Exchange
import BG96Driver.Modem.Lines
import Mathlib.Logic.Function.Basic

/-!
# Attaching to the network

`BG96::connect` has one variable, `done`, for three questions. It starts as true, so that a module
that does not take `ATE0` passes for registered. It is false without a registration, so that the
parameters of the context are not looked at. Then any answer to `AT+QICSGP=<id>` passes for the
parameters asked for.

* `Keeper`, `keeping`: a module that keeps the parameters that were set last by an acknowledged
  `AT+QICSGP`, as it reads them from the line.
* `Attached`: what a success should mean.
* `AttachCase`: what is said in a `connect` that succeeds.
* `attached_iff`: it means this if and only if a registration was reported, and the parameters were
  already there or, as plain strings, were sent because no answer came to the question for them.
-/

namespace Bg96.Modem

open Program
open Printf (Arg)
open Scanf (bytes)
open StringCommand (Plain)

/-! ## The contexts of the module -/

instance (s : List UInt8) : Decidable (Plain s) :=
  inferInstanceAs (Decidable (quote ∉ s ∧ Scanf.cr ∉ s ∧ Scanf.lf ∉ s))

/-- The parameters of a context. They are strings of a command. -/
structure Login where
  apn : List UInt8
  username : List UInt8
  password : List UInt8
  plain : Plain apn ∧ Plain username ∧ Plain password
  deriving DecidableEq

/-- The context has exactly the parameters. -/
def ContextHolds (contexts : Int → Option Login) (id : Int) (apn username password : String) :
    Prop :=
  ∃ login, contexts id = some login ∧ login.apn = bytes apn ∧ login.username = bytes username ∧
    login.password = bytes password

/-- The parameters can be strings of a command. -/
def PlainLogin (apn username password : String) : Prop :=
  Plain (bytes apn) ∧ Plain (bytes username) ∧ Plain (bytes password)

/-- The context that a line sets, and its parameters. -/
def settings (line : List UInt8) : Option (Int × Login) :=
  match readLine "AT+QICSGP=%d,1,\"%s\",\"%s\",\"%s\",0" line with
  | some [.int id, .str apn, .str username, .str password] =>
    if h : Plain apn ∧ Plain username ∧ Plain password then
      some (id, ⟨apn, username, password, h⟩)
    else none
  | _ => none

/-- The contexts of the module, and the line with strings that it has yet to acknowledge. -/
structure Keeper where
  contexts : Int → Option Login
  setting : Option (List UInt8)

/-- The line of a command with strings. -/
def stringLine (cmd : Format) : Option (List UInt8) := cmd.printed.filter (quote ∈ ·)

/-- `OK` acknowledges the command before it. What a line does that does not set the parameters of
one context is open. -/
def Keeper.Acks (m m' : Keeper) : Prop :=
  m'.setting = none ∧
    match m.setting with
    | none => m'.contexts = m.contexts
    | some line => ∀ id login, settings line = some (id, login) →
      m'.contexts = Function.update m.contexts id (some login)

/-- A module that answers anything, and keeps the parameters that it acknowledges. -/
def keeping : Env Keeper Call Call.Reply := fun m c r m' =>
  match c, r with
  | .send cmd, sent => m' = { m with setting := if sent then stringLine cmd else none }
  | .recv pattern, some _ => if pattern = okFormat then m.Acks m' else m' = m
  | _, _ => m' = m

/-- The call sends strings. -/
def Call.sets : Call → Bool
  | .send cmd => (stringLine cmd).isSome
  | _ => false

variable {contexts : Int → Option Login} {m m' : Keeper} {l l' said : List Exchange} {self : BG96}
  {apn username password : String}

theorem ContextHolds.plain {id : Int} (h : ContextHolds contexts id apn username password) :
    PlainLogin apn username password := by
  obtain ⟨login, -, hapn, husername, hpassword⟩ := h
  rw [PlainLogin, ← hapn, ← husername, ← hpassword]
  exact login.plain

/-- Nothing else changes a context. -/
theorem along_keeping_iff (hm : m.setting = none) (h : ∀ e ∈ l, e.1.sets = false) :
    Along keeping l m m' ↔ m' = m := by
  have hstep {e : Exchange} {t : Keeper} (he : e.1.sets = false) : keeping m e.1 e.2 t ↔ t = m := by
    obtain ⟨c, r⟩ := e
    obtain ⟨contexts, setting⟩ := m
    obtain rfl : setting = none := hm
    cases c with
    | send cmd =>
      have hcmd : stringLine cmd = none := by simpa [Call.sets] using he
      simp [keeping, hcmd]
    | recv pattern =>
      cases r with
      | none => rfl
      | some vs =>
        simp only [keeping]
        split
        · obtain ⟨contexts', setting'⟩ := t
          simp [Keeper.Acks, and_comm]
        · rfl
    | _ => rfl
  induction l with
  | nil => exact eq_comm
  | cons e l ih =>
    obtain ⟨hfirst, hrest⟩ := List.forall_mem_cons.mp h
    simp only [Along, hstep hfirst, exists_eq_left]
    exact ih hrest

/-- A command is sent, and `OK` comes next. -/
def acknowledged (cmd : Format) (vs : List Value) : List Exchange :=
  [⟨.send cmd, true⟩, ⟨.recv okFormat, some vs⟩]

/-! ## What is reported -/

/-- The report of the registration. -/
def cgreg : Format := ⟨"+CGREG: %d, %d", []⟩

/-- The module has reported status 1 or 5. -/
def Registered (said : List Exchange) : Prop :=
  ∃ vs, ⟨.recv cgreg, some vs⟩ ∈ said ∧ (intAt vs 1 = 1 ∨ intAt vs 1 = 5)

/-- The report of the parameters of a context. -/
def qicsgpReport : Format := ⟨"+QICSGP: %d,\"%[^\"]\",\"%[^\"]\",\"%[^\"]\",%d\r\n", []⟩

/-- The module was asked for the parameters, and did not answer. -/
def Unconfigured (said : List Exchange) : Prop := ⟨.recv qicsgpReport, none⟩ ∈ said

/-- The module has reported that it is registered, and it has acknowledged the activation of the
context when the context had the parameters. -/
def Attached (self : BG96) (apn username password : String) (said : List Exchange)
    (m m' : Keeper) : Prop :=
  Registered said ∧ ∃ before vs after t,
    said = before ++ (acknowledged (qiact self) vs ++ after) ∧ Along keeping before m t ∧
    Along keeping (acknowledged (qiact self) vs ++ after) t m' ∧
    ContextHolds t.contexts self.contextID apn username password

/-- A call that does not ask for the registration or the parameters, and does not set them. -/
def Call.Aside (c : Call) : Prop := c.sets = false ∧ c ≠ .recv cgreg ∧ c ≠ .recv qicsgpReport

theorem registered_append : Registered (l ++ l') ↔ Registered l ∨ Registered l' := by
  simp only [Registered, List.mem_append, or_and_right, exists_or]

theorem not_registered (h : ∀ e ∈ l, e.1.Aside) : ¬ Registered l := by
  rintro ⟨vs, hmem, -⟩
  exact (h _ hmem).2.1 rfl

/-! ## What is said -/

/-- The question for the parameters of the context. -/
def qicsgpQuery (self : BG96) : Format := ⟨"AT+QICSGP=%d", [.int self.contextID]⟩

/-- What is said in `checkApn`, if it does not fail. -/
inductive CheckCase (self : BG96) (apn username password : String) : List Exchange → Prop where
  | unasked (ok : Option (List Value)) : CheckCase self apn username password
      [⟨.send (qicsgpQuery self), false⟩, ⟨.recv okFormat, ok⟩]
  | kept (vs : List Value) (ok : Option (List Value)) : CheckCase self apn username password
      [⟨.send (qicsgpQuery self), true⟩, ⟨.recv qicsgpReport, some vs⟩, ⟨.recv okFormat, ok⟩]
  | stored (vs : List Value) : CheckCase self apn username password
      ([⟨.send (qicsgpQuery self), true⟩, ⟨.recv qicsgpReport, none⟩] ++
        acknowledged (storeApn self apn username password) vs)

theorem traces_checkApn (h : Traces (checkApn self apn username password) l (some true)) :
    CheckCase self apn username password (spoken l) := by
  have hkeep {l : List Exchange} (h : Traces (do
      let _ ← recvOk
      Parser.setTimeout atTimeout
      return true) l (some true)) : ∃ ok, spoken l = [⟨.recv okFormat, ok⟩] := by
    obtain ⟨ok, l, rfl, hset⟩ := traces_call.mp h
    obtain ⟨_, l, rfl, hret⟩ := traces_call.mp hset
    obtain ⟨rfl, -⟩ := traces_ret.mp hret
    exact ⟨ok, rfl⟩
  obtain ⟨_, l, rfl, hsend⟩ := traces_call.mp h
  rw [spoken_silent rfl]
  obtain ⟨sent, l, rfl, hbody⟩ := traces_call.mp hsend
  rw [spoken_cons rfl]
  cases sent with
  | false =>
    obtain ⟨ok, hok⟩ := hkeep hbody
    rw [hok]
    exact .unasked ok
  | true =>
    change Traces (recvInto loginArrays qicsgpReport >>= _) _ _ at hbody
    obtain ⟨vs, l, rfl, -, hrest⟩ := traces_recvInto_bind.mp hbody
    rw [spoken_cons rfl]
    cases vs with
    | some vs =>
      obtain ⟨ok, hok⟩ := hkeep hrest
      rw [hok]
      exact .kept vs ok
    | none =>
      obtain ⟨_, l, rfl, hstore⟩ := traces_call.mp hrest
      rw [spoken_silent rfl]
      have hcase := traces_command hstore
      generalize spoken l = said at hcase
      cases hcase with
      | done vs => exact .stored vs

/-- The loop that activates the context ends with its acknowledgement. -/
theorem traces_retry {started : Bool} {limit : Int} {p : At Bool} {n : Nat}
    (h : Traces (retry started limit p n) l (some true)) :
    ∃ l₁ l₂, l = l₁ ++ l₂ ∧ Traces p l₂ (some true) := by
  induction n generalizing l with
  | zero => cases (traces_stop.mp h).2
  | succ n ih =>
    obtain ⟨ms, l, rfl, hbody⟩ := traces_call.mp h
    change Traces (if ms < limit then _ else _) _ _ at hbody
    split at hbody
    · obtain ⟨done, l₁, l₂, rfl, h₁, h₂⟩ := traces_bind_some.mp hbody
      cases done with
      | true =>
        obtain ⟨rfl, -⟩ := traces_ret.mp h₂
        rw [List.append_nil]
        exact ⟨[_], l₁, rfl, h₁⟩
      | false =>
        obtain ⟨l₃, l₄, rfl, h₄⟩ := ih h₂
        exact ⟨⟨.readMs started, ms⟩ :: l₁ ++ l₃, l₄, by simp, h₄⟩
    · cases (traces_ret.mp hbody).2

theorem aside_tx2bg96 {T : Prop} {cmd : Format} (h : stringLine cmd = none) :
    Only T Call.Aside (tx2bg96 cmd) := by
  have hsend : Call.Aside (.send cmd) := ⟨by simpa [Call.sets] using h, nofun, nofun⟩
  have hrecv : Call.Aside (.recv okFormat) :=
    ⟨rfl, by simp [okFormat, cgreg], by simp [okFormat, qicsgpReport]⟩
  exact only_locked ⟨rfl, nofun, nofun⟩ ⟨rfl, nofun, nofun⟩ (only_command hsend hrecv)

/-- A command without strings. -/
theorem stringLine_eq_none {cmd : Format} (hcmd : cmd.Readable)
    (hlit : .lit quote ∉ directivesOf cmd.text) (hargs : ∀ s, .str s ∉ cmd.printfArgs) :
    stringLine cmd = none := by
  obtain ⟨line, h, hline⟩ := hcmd.exists_printed
  rw [stringLine, hline, Option.filter_some, if_neg]
  rw [decide_eq_true_iff]
  intro hmem
  rcases h.mem hmem with hds | ⟨n, hn⟩ | ⟨s, hs, -⟩
  · exact hlit hds
  · exact Printf.not_mem_decimal (by decide) (by decide) n hn
  · exact hargs s hs

theorem stringLine_qiact (self : BG96) : stringLine (qiact self) = none :=
  stringLine_eq_none ⟨rfl, rfl, of_decide_eq_true rfl, of_decide_eq_true rfl⟩
    (of_decide_eq_true rfl) (by simp [Format.printfArgs, qiact, Value.arg])

theorem stringLine_qicsgpQuery (self : BG96) : stringLine (qicsgpQuery self) = none :=
  stringLine_eq_none ⟨rfl, rfl, of_decide_eq_true rfl, of_decide_eq_true rfl⟩
    (of_decide_eq_true rfl) (by simp [Format.printfArgs, qicsgpQuery, Value.arg])

theorem aside_retry (n : Nat) :
    Only True Call.Aside (retry false bg96Timeout150s (tx2bg96 (qiact self)) n) := by
  induction n with
  | zero => trivial
  | succ n ih =>
    refine ⟨⟨rfl, nofun, nofun⟩, fun ms => only_ite.mpr ⟨fun _ => ?_, fun _ => trivial⟩⟩
    refine (aside_tx2bg96 (stringLine_qiact self)).bind fun done => ?_
    exact only_ite.mpr ⟨fun _ => trivial, fun _ => ih⟩

/-- `connect(int)` succeeds when the activation is acknowledged. -/
theorem traces_connectPdp {n : Nat} {pdpId : Int}
    (h : Traces (connectPdp n self pdpId) l (some nsapiErrorOk)) :
    ∃ a vs, spoken l = a ++ acknowledged (qiact self) vs ∧
      ∀ e ∈ a, e.1.Aside := by
  obtain ⟨_, hspoken, hbody⟩ := traces_locked h
  obtain ⟨done, l₁, l₂, rfl, h₁, h₂⟩ := traces_bind_some.mp hbody
  obtain ⟨_, l₂, rfl, hret⟩ := traces_call.mp h₂
  obtain ⟨rfl, hrc⟩ := traces_ret.mp hret
  cases done with
  | false => cases hrc
  | true =>
    have haside := ((aside_retry n).traces h₁).1
    obtain ⟨l₃, l₄, rfl, htx⟩ := traces_retry h₁
    obtain ⟨_, hspoken', hcommand⟩ := traces_locked htx
    have hcase := traces_command hcommand
    rw [← hspoken'] at hcase
    rw [hspoken, spoken_append, spoken_append, spoken_silent rfl, spoken_nil, List.append_nil]
    generalize spoken l₄ = said at hcase
    cases hcase with
    | done vs =>
      refine ⟨spoken l₃, vs, rfl, fun e he => ?_⟩
      exact haside e (List.mem_append_left _ (List.mem_filter.mp he).1)

/-- A call that does not ask for the parameters, and does not set them. -/
def Call.Before (c : Call) : Prop := c.sets = false ∧ c ≠ .recv qicsgpReport

theorem before_tx2bg96 {T : Prop} {cmd : Format} (h : stringLine cmd = none) :
    Only T Call.Before (tx2bg96 cmd) := (aside_tx2bg96 h).mono id fun _ hc => ⟨hc.1, hc.2.2⟩

theorem before_register : Only True Call.Before register := by
  have hsend {cmd : Format} (h : stringLine cmd = none) : Call.Before (.send cmd) :=
    ⟨by simp [Call.sets, h], nofun⟩
  refine (before_tx2bg96 rfl).bind fun ok => only_ite.mpr ⟨fun _ => ?_, fun _ => trivial⟩
  refine (before_tx2bg96 rfl).bind fun _ => ?_
  refine (only_registrationLoop (hsend rfl) ⟨rfl, by simp [qicsgpReport]⟩ 255).bind fun ok => ?_
  refine only_ite.mpr ⟨fun _ => ?_, fun _ => trivial⟩
  refine (only_peekInto trivial (hsend rfl) ⟨rfl, by simp [qicsgpReport]⟩).bind ?_
  exact fun _ => (before_tx2bg96 rfl).map

/-- The loop does not end without a registration that is reported. -/
theorem traces_registrationLoop {i : Nat} (h : Traces (registrationLoop i) l (some false)) :
    ¬ Registered l := by
  have hsend {sent : Bool} {l : List Exchange} (h : ¬ Registered l) :
      ¬ Registered (⟨.send ⟨"AT+CGREG?", []⟩, sent⟩ :: l) := by
    simpa [Registered] using h
  induction i generalizing l with
  | zero =>
    obtain ⟨rfl, -⟩ := traces_ret.mp h
    simp [Registered]
  | succ i ih =>
    obtain ⟨sent, l, rfl, hbody⟩ := traces_call.mp h
    refine hsend ?_
    cases sent with
    | false => exact ih hbody
    | true =>
      obtain ⟨vs, l, rfl, hvs⟩ := traces_call.mp hbody
      cases vs with
      | none =>
        have := ih hvs
        simpa [Registered] using this
      | some vs =>
        change Traces (if intAt vs 1 = 1 ∨ intAt vs 1 = 5 then _ else _) _ _ at hvs
        split at hvs
        · cases (traces_ret.mp hvs).2
        · rename_i hstat
          rintro ⟨vs', hmem, hstat'⟩
          rcases List.mem_cons.mp hmem with heq | hmem
          · cases heq
            exact hstat hstat'
          · exact ih hvs ⟨vs', hmem, hstat'⟩

/-- Without a registration, `register` is false; it is also true if it has not asked for one. -/
theorem traces_register (h : Traces register l (some false)) : ¬ Registered l := by
  obtain ⟨ok, l₁, l₂, rfl, h₁, h₂⟩ := traces_bind_some.mp h
  have hecho := not_registered ((aside_tx2bg96 (T := False) rfl).traces h₁).1
  cases ok with
  | false => cases (traces_ret.mp h₂).2
  | true =>
    obtain ⟨_, l₃, l₄, rfl, h₃, h₄⟩ := traces_bind_some.mp h₂
    have hurc := not_registered ((aside_tx2bg96 (T := False) rfl).traces h₃).1
    obtain ⟨registration, l₅, l₆, rfl, h₅, h₆⟩ := traces_bind_some.mp h₄
    cases registration with
    | false =>
      obtain ⟨rfl, -⟩ := traces_ret.mp h₆
      have hloop := traces_registrationLoop h₅
      simp only [registered_append, not_or, List.append_nil]
      exact ⟨hecho, hurc, hloop⟩
    | true =>
      obtain ⟨_, l₇, l₈, rfl, -, h₈⟩ := traces_bind_some.mp h₆
      obtain ⟨_, -, ⟨⟩⟩ := traces_map_some.mp h₈

/-- What is said in a `connect` that succeeds. -/
inductive AttachCase (self : BG96) (apn username password : String) : List Exchange → Prop where
  | unregistered {said : List Exchange} (h : ¬ Registered said) :
      AttachCase self apn username password said
  | checked {r c a : List Exchange} (vs : List Value) (hr : ∀ e ∈ r, e.1.Before)
      (hc : CheckCase self apn username password c) (ha : ∀ e ∈ a, e.1.Aside) :
      AttachCase self apn username password (r ++ c ++ (a ++ acknowledged (qiact self) vs))

theorem not_registered_spoken (h : ¬ Registered l) : ¬ Registered (spoken l) := by
  rintro ⟨vs, hmem, hstat⟩
  exact h ⟨vs, (List.mem_filter.mp hmem).1, hstat⟩

theorem traces_connect {n : Nat}
    (h : Traces (connect n self apn username password) l (some nsapiErrorOk)) :
    AttachCase self apn username password (spoken l) := by
  obtain ⟨_, l, rfl, htimeout⟩ := traces_call.mp h
  obtain ⟨_, l, rfl, hbody⟩ := traces_call.mp htimeout
  rw [spoken_silent rfl, spoken_silent rfl]
  change Traces (register >>= _) _ _ at hbody
  obtain ⟨done, l₁, l₂, rfl, h₁, h₂⟩ := traces_bind_some.mp hbody
  rw [spoken_append]
  cases done with
  | false =>
    obtain ⟨_, l, rfl, hpdp⟩ := traces_call.mp h₂
    change Traces (connectPdp n self self.contextID) _ _ at hpdp
    obtain ⟨a, vs, hspoken, haside⟩ := traces_connectPdp hpdp
    refine .unregistered ?_
    rw [spoken_silent rfl, hspoken, registered_append, registered_append]
    have hactivation : ¬ Registered (acknowledged (qiact self) vs) := by
      simp [acknowledged, Registered, okFormat, cgreg]
    simp only [not_or]
    exact ⟨not_registered_spoken (traces_register h₁), not_registered haside, hactivation⟩
  | true =>
    have hbefore := (before_register.traces h₁).1
    change Traces (checkApn self apn username password >>= _) _ _ at h₂
    obtain ⟨stored, l₃, l₄, rfl, h₃, h₄⟩ := traces_bind_some.mp h₂
    cases stored with
    | false => cases (traces_ret.mp h₄).2
    | true =>
      obtain ⟨_, l, rfl, hpdp⟩ := traces_call.mp h₄
      change Traces (connectPdp n self self.contextID) _ _ at hpdp
      obtain ⟨a, vs, hspoken, haside⟩ := traces_connectPdp hpdp
      rw [spoken_append, spoken_silent rfl, hspoken, ← List.append_assoc]
      refine .checked vs (fun e he => ?_) (traces_checkApn h₃) haside
      exact hbefore e (List.mem_filter.mp he).1

/-! ## What a success means -/

/-- The line of the parameters sets them, if they are plain. -/
theorem settings_storeApn (hplain : PlainLogin apn username password) :
    ∃ line, stringLine (storeApn self apn username password) = some line ∧ settings line =
      some (self.contextID, ⟨bytes apn, bytes username, bytes password, hplain⟩) := by
  have hcmd : (storeApn self apn username password).Readable :=
    ⟨rfl, rfl, of_decide_eq_true rfl, of_decide_eq_true rfl⟩
  obtain ⟨line, hline, hread⟩ := Option.bind_eq_some_iff.mp (hcmd.printed_readLine.mpr (by
    simpa [Format.printfArgs, storeApn, Value.arg, PlainLogin] using hplain))
  obtain ⟨line', h, hprinted⟩ := hcmd.exists_printed
  obtain rfl : line = line' := Option.some.inj (hline.symm.trans hprinted)
  have hlit : .lit quote ∈ directivesOf (storeApn self apn username password).text :=
    of_decide_eq_true rfl
  have hquote : quote ∈ line := h.lit_mem hlit
  refine ⟨line, by simp [stringLine, hline, hquote], ?_⟩
  have hread : readLine "AT+QICSGP=%d,1,\"%s\",\"%s\",\"%s\",0" line =
      some [.int self.contextID, .str (bytes apn), .str (bytes username), .str (bytes password)] :=
    hread
  rw [settings, hread]
  exact dif_pos hplain

/-- An acknowledged command leaves its parameters, if nothing else is set after it. -/
theorem holds_of_stored {vs : List Value} (hplain : PlainLogin apn username password)
    (hl : Along keeping (l ++ acknowledged (storeApn self apn username password) vs ++ l') m m')
    (h : ∀ e ∈ l', e.1.sets = false) :
    ContextHolds m'.contexts self.contextID apn username password := by
  obtain ⟨t, h₁, h₂⟩ := along_append.mp hl
  obtain ⟨u, -, hstore⟩ := along_append.mp h₁
  obtain ⟨line, hline, hsettings⟩ :
      ∃ line, stringLine (storeApn self apn username password) = some line ∧ _ :=
    settings_storeApn hplain
  obtain ⟨_, rfl, v, hacks, rfl⟩ := hstore
  obtain ⟨hnone, hcontexts⟩ : Keeper.Acks _ v := hacks
  simp only [if_true, hline] at hcontexts
  rw [(along_keeping_iff hnone h).mp h₂, hcontexts _ _ hsettings]
  exact ⟨_, Function.update_self .., rfl, rfl, rfl⟩

/-- The parameters are stored if and only if the question for them is not answered. -/
theorem CheckCase.stored_or {c : List Exchange} (h : CheckCase self apn username password c) :
    ¬ Unconfigured c ∧ (∀ e ∈ c, e.1.sets = false) ∨ Unconfigured c ∧ ∃ l vs, c = l ++
      acknowledged (storeApn self apn username password) vs := by
  cases h with
  | unasked ok =>
    simp [Unconfigured, Call.sets, stringLine_qicsgpQuery, qicsgpReport, okFormat]
  | kept vs ok =>
    simp [Unconfigured, Call.sets, stringLine_qicsgpQuery, qicsgpReport, okFormat]
  | stored vs => exact .inr ⟨by simp [Unconfigured], [_, _], vs, rfl⟩

/-- The activation sets nothing, and does not ask for the parameters. -/
theorem before_activation (vs : List Value) :
    ∀ e ∈ acknowledged (qiact self) vs, e.1.Before := by
  simp [acknowledged, Call.Before, Call.sets, stringLine_qiact, okFormat, qicsgpReport]

theorem not_unconfigured (h : ∀ e ∈ l, e.1.Before) : ¬ Unconfigured l := fun hmem =>
  (h _ hmem).2 rfl

/-- **Attachment.** A success of `connect` means that the module is attached as asked for if and
only if a registration was reported, and the module did not answer the question for the parameters
of the context, which are plain, or had them as asked for. -/
theorem attached_iff (contexts : Int → Option Login) (m' : Keeper) (n : Nat) (self : BG96)
    (apn username password : String) (l : List Exchange)
    (h : Traces (connect n self apn username password) l (some nsapiErrorOk))
    (hl : Along keeping (spoken l) ⟨contexts, none⟩ m') :
    Attached self apn username password (spoken l) ⟨contexts, none⟩ m' ↔
      Registered (spoken l) ∧ (Unconfigured (spoken l) ∧ PlainLogin apn username password ∨
        ContextHolds contexts self.contextID apn username password) := by
  have hcase := traces_connect h
  generalize spoken l = said at hcase hl
  cases hcase with
  | unregistered hnot => exact iff_of_false (fun hatt => hnot hatt.1) fun hreg => hnot hreg.1
  | @checked r c a vs hr hc ha =>
    have hrest : ∀ e ∈ a ++ acknowledged (qiact self) vs, e.1.Before :=
      List.forall_mem_append.mpr ⟨fun e he => ⟨(ha e he).1, (ha e he).2.2⟩, before_activation vs⟩
    have hcut : r ++ c ++ (a ++ acknowledged (qiact self) vs) =
        (r ++ c ++ a) ++ (acknowledged (qiact self) vs ++ []) := by simp
    rcases hc.stored_or with ⟨hun, hsets⟩ | ⟨hun, c, vs', rfl⟩
    · -- no parameters are set
      have hall : ∀ e ∈ r ++ c ++ (a ++ acknowledged (qiact self) vs), e.1.sets = false :=
        List.forall_mem_append.mpr ⟨List.forall_mem_append.mpr ⟨fun e he => (hr e he).1, hsets⟩,
          fun e he => (hrest e he).1⟩
      have hanswered : ¬ Unconfigured (r ++ c ++ (a ++ acknowledged (qiact self) vs)) := by
        intro hmem
        rcases List.mem_append.mp hmem with hmem | hmem
        · exact (List.mem_append.mp hmem).elim (not_unconfigured hr) hun
        · exact not_unconfigured hrest hmem
      constructor
      · rintro ⟨hreg, before, vs, after, t, hsaid, h₁, -, hholds⟩
        have ht := (along_keeping_iff rfl fun e he =>
          hall e (hsaid ▸ List.mem_append_left _ he)).mp h₁
        rw [ht] at hholds
        exact ⟨hreg, .inr hholds⟩
      · rintro ⟨hreg, hholds⟩
        rw [hcut] at hl hall
        obtain ⟨t, h₁, h₂⟩ := along_append.mp hl
        have ht := (along_keeping_iff rfl fun e he =>
          hall e (List.mem_append_left _ he)).mp h₁
        refine ⟨hreg, _, vs, [], t, hcut, h₁, h₂, ?_⟩
        rw [ht]
        exact hholds.resolve_left fun hunasked => hanswered hunasked.1
    · -- the parameters are set, and nothing is after them
      constructor
      · rintro ⟨hreg, before, vs, after, t, -, -, -, hholds⟩
        refine ⟨hreg, .inl ⟨?_, hholds.plain⟩⟩
        exact List.mem_append_left _ (List.mem_append_right _ hun)
      · rintro ⟨hreg, hplain⟩
        have hplain : PlainLogin apn username password := hplain.elim (·.2) ContextHolds.plain
        rw [hcut] at hl
        obtain ⟨t, h₁, h₂⟩ := along_append.mp hl
        refine ⟨hreg, _, vs, [], t, hcut, h₁, h₂, ?_⟩
        rw [← List.append_assoc] at h₁
        exact holds_of_stored hplain h₁ fun e he => (ha e he).1

/-- A command of `tx2bg96` is acknowledged. -/
def told (cmd : Format) : List Exchange := ⟨.lock, ()⟩ :: acknowledged cmd [] ++ [⟨.unlock, ()⟩]

/-- What is said in a `connect` with the module in its home network. -/
def registering (self : BG96) : List Exchange :=
  [⟨.lock, ()⟩, ⟨.setTimeout 2000, ()⟩] ++ told ⟨"ATE0", []⟩ ++ told ⟨"AT+CGREG=0", []⟩ ++
  [⟨.send ⟨"AT+CGREG?", []⟩, true⟩, ⟨.recv cgreg, some [.int 0, .int 1]⟩] ++
  [⟨.send ⟨"AT+COPS?", []⟩, false⟩] ++ told ⟨"AT+CTZU=1", []⟩ ++
  [⟨.setTimeout 5000, ()⟩, ⟨.send (qicsgpQuery self), true⟩]

/-- What is said when the context is activated. -/
def activating (self : BG96) : List Exchange :=
  [⟨.unlock, ()⟩, ⟨.lock, ()⟩, ⟨.readMs false, (0 : Int)⟩] ++ told (qiact self) ++
  [⟨.setTimeout atTimeout, ()⟩, ⟨.unlock, ()⟩]

/-- The parameters that are asked for. -/
def internet : Login := ⟨bytes "internet", bytes "user", bytes "key", by decide⟩

/-- What is said when the context has no parameters. -/
def unconfigured : List Exchange :=
  registering .ctor ++ [⟨.recv qicsgpReport, none⟩, ⟨.setTimeout atTimeout, ()⟩] ++
    acknowledged (storeApn .ctor "internet" "user" "key") [] ++ activating .ctor

/-- The module with the parameters in its first context. -/
def configuredKeeper : Keeper := ⟨Function.update (fun _ => none) 1 (some internet), none⟩

theorem along_unconfigured :
    Along keeping (spoken unconfigured) ⟨fun _ => none, none⟩ configuredKeeper := by
  have hline : stringLine (storeApn .ctor "internet" "user" "key") =
      some (bytes "AT+QICSGP=1,1,\"internet\",\"user\",\"key\",0") := by decide
  have hsettings : settings (bytes "AT+QICSGP=1,1,\"internet\",\"user\",\"key\",0") =
      some (1, internet) := by decide
  have hstore : Along keeping (spoken (acknowledged (storeApn .ctor "internet" "user" "key") []))
      ⟨fun _ => none, none⟩ configuredKeeper := by
    refine ⟨_, rfl, configuredKeeper, ?_, rfl⟩
    simp only [keeping, if_true, hline]
    refine ⟨rfl, fun id login h => ?_⟩
    obtain ⟨rfl, rfl⟩ := Prod.mk.inj (Option.some.inj (hsettings.symm.trans h))
    rfl
  rw [unconfigured, spoken_append, spoken_append]
  refine along_append.mpr ⟨configuredKeeper, along_append.mpr ⟨_, ?_, hstore⟩, ?_⟩
  · exact (along_keeping_iff rfl (by decide)).mpr rfl
  · exact (along_keeping_iff rfl (by decide)).mpr rfl

theorem attached_iff_stored : Attached .ctor "internet" "user" "key" (spoken unconfigured)
    ⟨fun _ => none, none⟩ configuredKeeper := by
  refine (attached_iff _ _ 1 _ _ _ _ _ (traces_iff_replay.mpr rfl) along_unconfigured).mpr ⟨?_, ?_⟩
  · exact ⟨[.int 0, .int 1],
      List.mem_filter.mpr ⟨by simp [unconfigured, registering], rfl⟩, .inl rfl⟩
  · exact .inl ⟨List.mem_filter.mpr ⟨by simp [unconfigured], rfl⟩, internet.plain⟩

/-- What is said when the context has other parameters. -/
def others : List Exchange :=
  registering .ctor ++
    [⟨.recv qicsgpReport, some [.int 1, .str "other", .str "user", .str "key", .int 0]⟩,
      ⟨.recv okFormat, some []⟩, ⟨.setTimeout atTimeout, ()⟩] ++ activating .ctor

/-- The context keeps the parameters that it has. -/
theorem attached_iff_kept : ¬ ∀ contexts m' n self apn username password l,
    Traces (connect n self apn username password) l (some nsapiErrorOk) →
      Along keeping (spoken l) ⟨contexts, none⟩ m' →
      Attached self apn username password (spoken l) ⟨contexts, none⟩ m' := by
  intro h
  let other : Login := ⟨bytes "other", bytes "user", bytes "key", by decide⟩
  have hsets : ∀ e ∈ spoken others, e.1.sets = false := by decide
  have hatt := h (fun _ => some other) _ 1 .ctor "internet" "user" "key" others
    (traces_iff_replay.mpr rfl) ((along_keeping_iff rfl hsets).mpr rfl)
  obtain ⟨-, before, vs, after, t, hsaid, h₁, -, login, hlogin, hapn, -⟩ := hatt
  have ht := (along_keeping_iff rfl fun e he => hsets e (hsaid ▸ List.mem_append_left _ he)).mp h₁
  rw [ht] at hlogin
  obtain rfl : other = login := Option.some.inj hlogin
  exact absurd hapn (by decide)

end Bg96.Modem
