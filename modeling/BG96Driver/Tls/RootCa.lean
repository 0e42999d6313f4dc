import BG96Driver.Modem.Exchange
import BG96Driver.Tls.Socket

/-!
# The root certificate

`configure_cacert_path` of `BG96` gives -1 or the number of the last error after a refused setting,
and that of `BG96TLSSocket` takes every number but 0 for a success.

* `Installed`: the file was sent, and the module has acknowledged the setting.
* `CacertCase`: what is said in `configure_cacert_path` of `BG96`.
* `root_ca_iff`: a success of `set_root_ca_cert` is true if and only if the module answers to a
  refused setting that the last error has the number 0.
-/

namespace Bg96.Tls

open Program Modem

/-! ## What is said -/

variable {self : BG96TLSSocket} {cmd : Format} {cacert : Option Chars} {pem : Chars}
  {l said : List Exchange} {rc : Int} {r : Bool × Int}

/-- The file of `set_root_ca_cert`. -/
def caFilename : String := "cacert.pem"

/-- The setting of the root certificate. -/
def qsslcfgCacert (sslctxId : Int) (path : String) : Format :=
  ⟨"AT+QSSLCFG=\"cacert\",%d,\"%s\"", [.int sslctxId, .str path]⟩

/-- `send_file` has reported a success, and then the module has acknowledged the setting. -/
def Installed (self : BG96TLSSocket) (cacert : Option Chars) (l : List Exchange) : Prop :=
  ∃ pem l₁ l₂ r ok, cacert = some pem ∧ l = l₁ ++ l₂ ∧
    Traces (sendFile pem caFilename true) l₁ (some r) ∧ r ≠ 0 ∧
    [⟨.send (qsslcfgCacert self.sslctxId caFilename), true⟩, ⟨.recv okFormat, some ok⟩] <+: spoken l₂

/-- The command is not sent, or `OK` does not come after it. -/
def Refused (cmd : Format) (said : List Exchange) : Prop :=
  ⟨.send cmd, false⟩ ∈ said ∨ [⟨.send cmd, true⟩, ⟨.recv okFormat, none⟩] <:+: said

/-- The module answers that the last error has the number 0. -/
def AnswersZero (said : List Exchange) : Prop :=
  ∃ vs ok, [⟨.send qigeterror, true⟩, ⟨.recv qigeterrorReport, some vs⟩,
    ⟨.recv okFormat, some ok⟩] <:+: said ∧ intAt vs 0 = 0

/-- What is said in `configure_cacert_path` of `BG96`, with whether the setting was acknowledged,
and what it gives. -/
inductive CacertCase (cmd : Format) : List Exchange → Bool × Int → Prop where
  | acknowledged (ok : List Value) :
      CacertCase cmd [⟨.send cmd, true⟩, ⟨.recv okFormat, some ok⟩] (true, 1)
  | refused {refusal query rest : List Exchange} {vs : Option (List Value)} {done : Bool}
    (h : CommandCase cmd refusal false) (hq : QueryCase qigeterror qigeterrorReport query vs)
    (hr : CommandCase ⟨"AT+QSSLCFG=?", []⟩ rest done) :
    CacertCase cmd (refusal ++ (query ++ rest)) (false, vs.elim (-1) fun vs => intAt vs 0)

theorem traces_configureCacert {path : String} {sslctxId : Int}
    (h : Traces (configureCacert path sslctxId) l (some r)) :
    CacertCase (qsslcfgCacert sslctxId path) (spoken l) r := by
  obtain ⟨_, hspoken, hbody⟩ := traces_locked_timed h
  rw [hspoken]
  obtain ⟨ok, l₁, l₂, rfl, h₁, h₂⟩ := traces_bind_some.mp hbody
  have hcommand := traces_command h₁
  rw [spoken_append]
  cases ok with
  | true =>
    obtain ⟨rfl, ⟨⟩⟩ := traces_ret.mp h₂
    rw [spoken_nil, List.append_nil]
    generalize spoken l₁ = said at hcommand
    cases hcommand with
    | done ok => exact .acknowledged ok
  | false =>
    obtain ⟨err, l₃, l₄, rfl, h₃, h₄⟩ := traces_bind_some.mp h₂
    obtain ⟨vs, hquery, rfl⟩ := traces_getError h₃
    obtain ⟨done, hrest, rfl⟩ := traces_map_some.mp h₄
    rw [spoken_append]
    have hcase := CacertCase.refused hcommand hquery (traces_command hrest)
    cases vs <;> exact hcase

/-- An acknowledged setting comes first. -/
theorem CacertCase.acknowledged_iff (h : CacertCase cmd said r) :
    r.1 = true ↔ ∃ ok, [⟨.send cmd, true⟩, ⟨.recv okFormat, some ok⟩] <+: said := by
  cases h with
  | acknowledged ok => exact iff_of_true rfl ⟨ok, List.prefix_rfl⟩
  | refused h hq hr =>
    refine iff_of_false (by simp) ?_
    rintro ⟨ok, hprefix⟩
    cases h <;> simp [List.cons_prefix_cons] at hprefix

/-- A call that neither sets the root certificate nor asks for the last error. -/
def Unrelated (ctx : Int) (c : Modem.Call) : Prop :=
  c ≠ .send (qsslcfgCacert ctx caFilename) ∧ c ≠ .send qigeterror

variable {before : List Exchange} {ctx : Int}

theorem CacertCase.refused_iff (h : CacertCase (qsslcfgCacert ctx caFilename) said r)
    (hbefore : ∀ e ∈ before, Unrelated ctx e.1) :
    Refused (qsslcfgCacert ctx caFilename) (before ++ said) ↔ r.1 = false := by
  have hmem (sent : Bool) : ⟨.send (qsslcfgCacert ctx caFilename), sent⟩ ∉ before :=
    fun hmem => (hbefore _ hmem).1 rfl
  rw [Refused, List.mem_append, or_iff_right (hmem false), infix_append_iff (hmem true)]
  cases h with
  | acknowledged ok => simp [List.infix_cons_iff, List.cons_prefix_cons]
  | refused h hq hr =>
    refine iff_of_true ?_ rfl
    cases h with
    | unsent => exact .inl (by simp)
    | unanswered => exact .inr (List.prefix_append ..).isInfix

theorem CacertCase.answersZero_iff (h : CacertCase (qsslcfgCacert ctx caFilename) said r)
    (hbefore : ∀ e ∈ before, Unrelated ctx e.1) (hr : r.1 = false) :
    AnswersZero (before ++ said) ↔ r.2 = 0 := by
  have hmem : ⟨.send qigeterror, true⟩ ∉ before := fun hmem => (hbefore _ hmem).2 rfl
  cases h with
  | acknowledged ok => cases hr
  | @refused refusal query rest vs done h hq hrest =>
    have hrefusal : ⟨.send qigeterror, true⟩ ∉ refusal := by
      cases h <;> simp [qigeterror, qsslcfgCacert]
    have hafter : ⟨.send qigeterror, true⟩ ∉ rest := by
      cases hrest <;> simp [qigeterror]
    simp only [AnswersZero, infix_append_iff hmem, infix_append_iff hrefusal]
    rw [hq.infix_iff hafter]
    cases vs with
    | none => simp
    | some vs => simp

/-! ## What a success of `set_root_ca_cert` means -/

theorem unrelated_sendFile (ctx : Int) (pem : Chars) (overrideok : Bool) :
    Only True (Unrelated ctx) (sendFile pem caFilename overrideok) := by
  have hlock : Unrelated ctx .lock := by simp [Unrelated]
  have hunlock : Unrelated ctx .unlock := by simp [Unrelated]
  have hset (ms : Int) : Unrelated ctx (.setTimeout ms) := by simp [Unrelated]
  have hrecv (pattern : Format) : Unrelated ctx (.recv pattern) := by simp [Unrelated]
  have hput (c : UInt8) : Unrelated ctx (.putc c) := by simp [Unrelated]
  have hsend {text : String} {args : List Value} (hcacert : text ≠ "AT+QSSLCFG=\"cacert\",%d,\"%s\"")
      (herror : text ≠ "AT+QIGETERROR") : Unrelated ctx (.send ⟨text, args⟩) := by
    simp [Unrelated, qsslcfgCacert, qigeterror, hcacert, herror]
  have hupload : Only True (Unrelated ctx) (uploadFile pem caFilename) :=
    only_uploadFile hlock hunlock hset (hsend (by decide) (by decide)) hrecv hput
  have hquery {arrays : List (Nat × Nat)} {pattern : Format} :
      Only True (Unrelated ctx) (queryInto arrays ⟨"AT+QFLST=\"%s\"", [.str caFilename]⟩ pattern) :=
    only_queryInto trivial (hsend (by decide) (by decide)) (hrecv _) (hrecv _)
  have hexists : Only True (Unrelated ctx) (fileExists caFilename) :=
    (only_sprintfCommand fun _ => trivial).bind fun _ =>
      (only_locked hlock hunlock (only_timed hset hquery)).map
  have hdelete : Only True (Unrelated ctx) (deleteFile caFilename) :=
    (only_sprintfCommand fun _ => trivial).bind fun _ =>
      only_locked hlock hunlock (only_command (hsend (by decide) (by decide)) (hrecv _))
  refine Only.map (hexists.bind fun found => only_ite.mpr ⟨fun _ => ?_, fun _ => hupload.map⟩)
  refine only_ite.mpr ⟨fun _ => hdelete.bind fun deleted => ?_, fun _ => trivial⟩
  exact only_ite.mpr ⟨fun _ => hupload.map, fun _ => trivial⟩

/-- **Root certificate.** A success of `set_root_ca_cert` is true if and only if the module answers
to a refused setting that the last error has the number 0. -/
theorem root_ca_iff (h : Traces (setRootCaCert self cacert) l (some rc)) :
    (rc = nsapiErrorOk → Installed self cacert l) ↔
      (Refused (qsslcfgCacert self.sslctxId caFilename) (spoken l) → AnswersZero (spoken l)) := by
  have hfailed : nsapiErrorDeviceError ≠ nsapiErrorOk := by decide
  cases cacert with
  | none =>
    obtain ⟨rfl, ⟨⟩⟩ := traces_ret.mp h
    refine iff_of_true (fun hrc => absurd hrc hfailed) fun href => ?_
    simp [Refused] at href
  | some pem =>
    obtain ⟨r, l₁, l₂, rfl, h₁, h₂⟩ := traces_bind_some.mp h
    have hbefore : ∀ e ∈ spoken l₁, Unrelated self.sslctxId e.1 := fun e he =>
      ((unrelated_sendFile self.sslctxId pem true).traces h₁).1 e (List.mem_of_mem_filter he)
    by_cases hr : r = 0
    · rw [if_neg (not_not.mpr hr)] at h₂
      obtain ⟨rfl, ⟨⟩⟩ := traces_ret.mp h₂
      refine iff_of_true (fun hrc => absurd hrc hfailed) fun href => ?_
      rw [List.append_nil] at href
      rcases href with hmem | hpart
      · exact absurd rfl (hbefore _ hmem).1
      · exact absurd rfl (hbefore _ (hpart.subset List.mem_cons_self)).1
    · rw [if_pos hr] at h₂
      obtain ⟨c, hconfigure, rfl⟩ := traces_map_some.mp h₂
      obtain ⟨n, hpath, rfl⟩ := traces_map_some.mp hconfigure
      obtain ⟨q, hcacert, rfl⟩ := traces_map_some.mp hpath
      have hcase := traces_configureCacert hcacert
      have hrc : ((if (if q.2 ≠ 0 then (1 : Int) else 0) ≠ 0 then nsapiErrorOk
          else nsapiErrorDeviceError) = nsapiErrorOk) ↔ q.2 ≠ 0 := by
        by_cases hq : q.2 = 0 <;> simp [hq, hfailed]
      -- the file is sent in the first part of the trace only
      have hinstalled : Installed self (some pem) (l₁ ++ l₂) ↔ q.1 = true := by
        rw [hcase.acknowledged_iff]
        constructor
        · rintro ⟨pem', m₁, m₂, r', ok, ⟨⟩, hcut, hsent, -, hprefix⟩
          obtain ⟨rfl, -⟩ := h₁.prefix_unique hsent hcut
          exact ⟨ok, List.append_cancel_left hcut ▸ hprefix⟩
        · rintro ⟨ok, hprefix⟩
          exact ⟨pem, l₁, l₂, r, ok, rfl, rfl, h₁, hr, hprefix⟩
      rw [hrc, hinstalled, spoken_append, hcase.refused_iff hbefore]
      cases hq : q.1 with
      | true => simp
      | false =>
        rw [hcase.answersZero_iff hbefore hq]
        simp

/-- The file is uploaded, the setting is refused, and the last error has the given number. -/
def refusedSetting (err : Int) : List Exchange :=
  [⟨.lock, ()⟩, ⟨.setTimeout 2000, ()⟩,
    ⟨.send ⟨"AT+QFLST=\"%s\"", [.str caFilename]⟩, true⟩,
    ⟨.recv ⟨"+QFLST: \"%[^\"]\",%d", []⟩, none⟩, ⟨.setTimeout atTimeout, ()⟩, ⟨.unlock, ()⟩,
    ⟨.lock, ()⟩, ⟨.setTimeout bg96Wait1s, ()⟩,
    ⟨.send ⟨"AT+QFUPL=\"%s\",%d", [.str caFilename, .int 1]⟩, true⟩,
    ⟨.recv ⟨"CONNECT", []⟩, some []⟩, ⟨.putc 0, 1⟩, ⟨.setTimeout bg96Wait1s, ()⟩,
    ⟨.recv qfupl, some [.int 1, .int 0]⟩, ⟨.recv okFormat, some []⟩,
    ⟨.setTimeout atTimeout, ()⟩, ⟨.unlock, ()⟩,
    ⟨.lock, ()⟩, ⟨.setTimeout 3000, ()⟩, ⟨.send (qsslcfgCacert 0 caFilename), true⟩,
    ⟨.recv okFormat, none⟩, ⟨.lock, ()⟩, ⟨.send qigeterror, true⟩,
    ⟨.recv qigeterrorReport, some [.int err, .str "SSL"]⟩, ⟨.recv okFormat, some []⟩, ⟨.unlock, ()⟩,
    ⟨.send ⟨"AT+QSSLCFG=?", []⟩, false⟩, ⟨.setTimeout atTimeout, ()⟩, ⟨.unlock, ()⟩]

theorem traces_refusedSetting :
    Traces (setRootCaCert .ctor (some [])) (refusedSetting 579) (some nsapiErrorOk) :=
  traces_iff_replay.mpr rfl

theorem root_ca_iff_refused :
    (nsapiErrorOk = nsapiErrorOk → Installed .ctor (some []) (refusedSetting 579)) ↔
      (Refused (qsslcfgCacert BG96TLSSocket.ctor.sslctxId caFilename)
        (spoken (refusedSetting 579)) → AnswersZero (spoken (refusedSetting 579))) :=
  root_ca_iff traces_refusedSetting

/-- The setting is refused, and the root certificate is reported as installed. -/
theorem root_ca_refused :
    ¬ ∀ (self : BG96TLSSocket) (cacert : Option Chars) (l : List Exchange) (rc : Int),
      Traces (setRootCaCert self cacert) l (some rc) → rc = nsapiErrorOk →
        Installed self cacert l := by
  intro h
  obtain ⟨pem, l₁, l₂, r, ok, -, hl, -, -, hprefix⟩ :=
    h .ctor (some []) _ _ traces_refusedSetting rfl
  -- no `OK` comes after the setting
  have hpart := hprefix.isInfix.trans
    ((List.suffix_append (spoken l₁) (spoken l₂)).isInfix)
  rw [← spoken_append, ← hl] at hpart
  simp [refusedSetting, spoken, Call.Spoken, List.infix_cons_iff, List.cons_prefix_cons,
    qsslcfgCacert, okFormat, qfupl, qigeterror, qigeterrorReport] at hpart

end Bg96.Tls
