import BG96Driver.Modem.Exchange
import BG96Driver.Modem.Operation

/-!
# The context of a PDP configuration

`configure_pdp_context` sets `_contextID` before it sends the command, ignores that `setContext`
may refuse the number, and does not go back when the command fails.

* `ValidContext`: `_contextID` is one of the contexts of the module, 1 to 16. It is so after every
  run of operations (`Ran.validContext`).
* `AllOrNothing`: the context is set and acknowledged, or nothing has changed.
* `pdp_context_iff`: it is so if and only if the number is a context, and the module acknowledges it
  or it is the context already.
-/

namespace Bg96.Modem

open Program

/-- The number of a context. -/
def IsContext (id : Int) : Prop := 1 ≤ id ∧ id ≤ 16

/-- The object uses a context of the module. -/
def ValidContext (self : BG96) : Prop := IsContext self.contextID

/-- The objects after the runs of operations from the constructor. -/
inductive Ran : BG96 → Prop where
  | ctor : Ran .ctor
  | op {self self' : BG96} {success : Bool} {n : Nat} {op : Op} {l : List Exchange}
    (h : Ran self) (hop : Traces (op.prog n self) l (some (self', success))) : Ran self'

variable {α β : Type} {self self' : BG96} {ctx : PdpCtx} {l : List Exchange} {rc : Int}

/-! ## The context in a run -/

/-- The program keeps the object within its contexts. -/
def KeepsContext (p : At (BG96 × α)) : Prop :=
  ∀ l r, Traces p l (some r) → ValidContext r.1

theorem keepsContext_ret (h : ValidContext self) (a : α) :
    KeepsContext (.ret (self, a) : At (BG96 × α)) := by
  intro l r hr
  obtain ⟨-, ⟨⟩⟩ := traces_ret.mp hr
  exact h

theorem KeepsContext.bind {p : At (BG96 × α)} {f : BG96 × α → At (BG96 × β)} (hp : KeepsContext p)
    (hf : ∀ r : BG96 × α, ValidContext r.1 → KeepsContext (f r)) : KeepsContext (p >>= f) := by
  intro l r h
  obtain ⟨a, l₁, l₂, rfl, h₁, h₂⟩ := traces_bind_some.mp h
  exact hf a (hp l₁ a h₁) l₂ r h₂

/-- A program that reads no object, before one that does. -/
theorem keepsContext_bind {p : At α} {f : α → At (BG96 × β)} (hf : ∀ a, KeepsContext (f a)) :
    KeepsContext (p >>= f) := by
  intro l r h
  obtain ⟨a, l₁, l₂, rfl, -, h₂⟩ := traces_bind_some.mp h
  exact hf a l₂ r h₂

theorem keepsContext_report (h : ValidContext self) (success : α → Bool) (p : At α) :
    KeepsContext (report self success p) := keepsContext_bind fun a => keepsContext_ret h (success a)

theorem keepsContext_locked {p : At (BG96 × α)} (hp : KeepsContext p) : KeepsContext (locked p) := by
  refine keepsContext_bind fun _ => hp.bind fun r hr => keepsContext_bind fun _ => ?_
  exact keepsContext_ret hr r.2

theorem keepsContext_bg96Ready (n : Nat) (h : ValidContext self) :
    KeepsContext (bg96Ready n self) := by
  have hreset : ValidContext (reset self) := h
  exact keepsContext_locked (keepsContext_bind fun done => keepsContext_ret hreset done)

theorem keepsContext_startup (n : Nat) (h : ValidContext self) : KeepsContext (startup n self) := by
  refine (keepsContext_bg96Ready n h).bind fun r hr => ?_
  obtain ⟨self, ready⟩ := r
  cases ready with
  | true => exact keepsContext_ret hr configureGnss
  | false => exact keepsContext_ret hr false

theorem keepsContext_powerOnGnss (n : Nat) (h : ValidContext self) :
    KeepsContext (powerOnGnss n self) := by
  unfold powerOnGnss
  split
  · exact keepsContext_ret h true
  · exact keepsContext_startup n h

theorem keepsContext_updateGnssLoc (h : ValidContext self) : KeepsContext (updateGnssLoc self) := by
  refine keepsContext_bind fun vs => ?_
  cases vs with
  | none => exact keepsContext_ret h false
  | some vs =>
    have hloc : ValidContext { self with gnssLoc := some (strAt vs 0) } := h
    exact keepsContext_ret hloc true

/-- `setContext` refuses or ignores what is no context. -/
theorem setContext_contextID (self : BG96) (id : Int) :
    (IsContext id → (setContext self id).1.contextID = id) ∧
      (¬ IsContext id → (setContext self id).1 = self) := by
  unfold setContext IsContext
  split
  · exact ⟨fun h => by omega, fun _ => rfl⟩
  · split
    · exact ⟨fun h => by omega, fun _ => rfl⟩
    · exact ⟨fun _ => rfl, fun h => by omega⟩

theorem validContext_setContext (h : ValidContext self) (id : Int) :
    ValidContext (setContext self id).1 := by
  obtain ⟨hset, hkeep⟩ := setContext_contextID self id
  by_cases hid : IsContext id
  · rw [ValidContext, hset hid]
    exact hid
  · rw [hkeep hid]
    exact h

theorem keepsContext_configurePdpContext (h : ValidContext self) (pdpCtx : Option PdpCtx) :
    KeepsContext (configurePdpContext self pdpCtx) := by
  cases pdpCtx with
  | none => exact keepsContext_ret h (-1)
  | some ctx =>
    have hset := validContext_setContext h ctx.pdpId
    refine keepsContext_bind fun ok => ?_
    cases ok with
    | true => exact keepsContext_ret hset ctx.pdpId
    | false => exact keepsContext_ret hset (-1)

theorem keepsContext_prog (n : Nat) (h : ValidContext self) (op : Op) :
    KeepsContext (op.prog n self) := by
  cases op with
  | startup => exact (keepsContext_startup n h).bind fun r hr => keepsContext_ret hr false
  | powerOnGnss => exact (keepsContext_powerOnGnss n h).bind fun r hr => keepsContext_ret hr false
  | updateGnssLoc => exact (keepsContext_updateGnssLoc h).bind fun r hr => keepsContext_ret hr false
  | configurePdpContext pdpCtx =>
    exact (keepsContext_configurePdpContext h pdpCtx).bind fun r hr => keepsContext_ret hr _
  | setContext i => exact keepsContext_ret (validContext_setContext h i) false
  | reset =>
    have hreset : ValidContext (reset self) := h
    exact keepsContext_ret hreset false
  | powerDown | powerOffGnss =>
    have hdown : ValidContext (powerDown self) := h
    exact keepsContext_ret hdown false
  | isPowerOn | configureGnss => exact keepsContext_ret h false
  | _ => exact keepsContext_report h _ _

/-- After every run the object uses a context of the module. -/
theorem Ran.validContext (h : Ran self) : ValidContext self := by
  induction h with
  | ctor => exact ⟨by decide, by decide⟩
  | @op self self' success n op l _ hop ih => exact keepsContext_prog n ih op l _ hop

/-! ## Configuring -/

/-- The module has acknowledged the parameters of the context. -/
def Configured (ctx : PdpCtx) (said : List Exchange) : Prop :=
  ∃ vs, [⟨.send (qicsgp ctx.pdpId ctx.apn ctx.username ctx.password), true⟩,
    ⟨.recv okFormat, some vs⟩] <+: said

/-- The context is set and acknowledged, or the call fails, nothing has changed, and no command is
sent for what is no context. -/
def AllOrNothing (self : BG96) (ctx : PdpCtx) (said : List Exchange) (self' : BG96) (rc : Int) :
    Prop :=
  rc = ctx.pdpId ∧ self'.contextID = ctx.pdpId ∧ Configured ctx said ∨
    rc = -1 ∧ self'.contextID = self.contextID ∧
      (¬ IsContext ctx.pdpId → ∀ cmd sent, ⟨.send cmd, sent⟩ ∉ said)

/-- What `configure_pdp_context` says and returns. -/
theorem traces_configurePdpContext
    (h : Traces (configurePdpContext self (some ctx)) l (some (self', rc))) :
    self' = (setContext self ctx.pdpId).1 ∧ ∃ ok,
      CommandCase (qicsgp ctx.pdpId ctx.apn ctx.username ctx.password) (spoken l) ok ∧
      rc = if ok then ctx.pdpId else -1 := by
  obtain ⟨ok, l₁, l₂, rfl, h₁, h₂⟩ := traces_bind_some.mp h
  obtain ⟨_, hspoken, hcommand⟩ := traces_locked h₁
  rw [spoken_append, hspoken]
  have hcase := traces_command hcommand
  cases ok with
  | true =>
    obtain ⟨rfl, ⟨⟩⟩ := traces_ret.mp h₂
    exact ⟨rfl, true, by rwa [spoken_nil, List.append_nil], rfl⟩
  | false =>
    obtain ⟨rfl, ⟨⟩⟩ := traces_ret.mp h₂
    exact ⟨rfl, false, by rwa [spoken_nil, List.append_nil], rfl⟩

/-- The command is always sent. -/
theorem CommandCase.sends {cmd : Format} {said : List Exchange} {ok : Bool}
    (h : CommandCase cmd said ok) : ∃ sent, ⟨.send cmd, sent⟩ ∈ said := by
  cases h with
  | unsent => exact ⟨false, List.mem_cons_self⟩
  | unanswered | done => exact ⟨true, List.mem_cons_self⟩

/-- **PDP configuration.** The object uses a context of the module, before and after. The context is
set and acknowledged, or nothing has changed, if and only if the number is a context, and the module
acknowledges it or the object uses it already. -/
theorem pdp_context_iff (hself : Ran self)
    (h : Traces (configurePdpContext self (some ctx)) l (some (self', rc))) :
    ValidContext self ∧ ValidContext self' ∧
      (AllOrNothing self ctx (spoken l) self' rc ↔
        IsContext ctx.pdpId ∧ (Configured ctx (spoken l) ∨ self.contextID = ctx.pdpId)) := by
  have hvalid := hself.validContext
  refine ⟨hvalid, keepsContext_configurePdpContext hvalid (some ctx) l _ h, ?_⟩
  obtain ⟨rfl, ok, hcase, rfl⟩ := traces_configurePdpContext h
  obtain ⟨hset, hkeep⟩ := setContext_contextID self ctx.pdpId
  have hconfigured : ok = true ↔ Configured ctx (spoken l) := hcase.acknowledged_iff
  rw [← hconfigured]
  unfold AllOrNothing
  rw [← hconfigured]
  by_cases hid : IsContext ctx.pdpId
  · rw [hset hid]
    have hne : ctx.pdpId ≠ -1 := by
      rintro heq
      rw [heq] at hid
      exact absurd hid.1 (by decide)
    cases ok with
    | true => simp [hid]
    | false => simp [hid, hne.symm, eq_comm]
  · -- the context stays, and the command is sent all the same
    rw [hkeep hid]
    obtain ⟨sent, hsent⟩ := hcase.sends
    refine iff_of_false ?_ fun hctx => hid hctx.1
    rintro (⟨-, heq, -⟩ | ⟨-, -, hnone⟩)
    · exact hid (heq ▸ hvalid)
    · exact hnone hid _ _ hsent

/-- The parameters of context 2. -/
def secondContext : PdpCtx := ⟨2, "internet", "user", "key"⟩

/-- What is said when the module answers the command with `vs`, or not. -/
def configuring (ctx : PdpCtx) (vs : Option (List Value)) : List Exchange :=
  [⟨.lock, ()⟩, ⟨.send (qicsgp ctx.pdpId ctx.apn ctx.username ctx.password), true⟩,
    ⟨.recv okFormat, vs⟩, ⟨.unlock, ()⟩]

theorem pdp_context_iff_acknowledged :
    AllOrNothing .ctor secondContext (spoken (configuring secondContext (some [])))
      { BG96.ctor with contextID := 2 } 2 :=
  (pdp_context_iff .ctor (traces_iff_replay.mpr rfl)).2.2.mpr
    ⟨⟨by decide, by decide⟩, .inl ⟨[], List.prefix_rfl⟩⟩

/-- The module refuses the parameters of context 2: the call fails, and the context is used. -/
theorem pdp_context_iff_refused : ¬ ∀ self ctx l self' rc, Ran self →
    Traces (configurePdpContext self (some ctx)) l (some (self', rc)) →
      AllOrNothing self ctx (spoken l) self' rc := by
  intro h
  have htrace : Traces (configurePdpContext .ctor (some secondContext))
      (configuring secondContext none) (some ({ BG96.ctor with contextID := 2 }, -1)) :=
    traces_iff_replay.mpr rfl
  rcases h _ _ _ _ _ .ctor htrace with ⟨hrc, -⟩ | ⟨-, hctx, -⟩
  · exact absurd hrc (by decide)
  · exact absurd hctx (by decide)

end Bg96.Modem
