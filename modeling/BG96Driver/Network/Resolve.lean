import BG96Driver.Modem.Exchange
import BG96Driver.Modem.Network
import BG96Driver.Socket.Records

/-!
# Name resolution

`resolveUrl` starts from the `OK` of the command: it is still a success when no report comes, or
when one comes that lists no address. `gethostbyname` does not count its attempts, and does not look
at the result of `SocketAddress::set_ip_address`, which is not part of the driver (`setIpAddress`).

* `Resolved`, `Denied`: what the module answers to an attempt.
* `ResolveCase`: what is said in `resolveUrl`, and what it gives.
* `gethostbyname`, `gethostbyname_iff`: it returns after the first success.
* `resolution_iff`: resolution is bounded and honest if and only if one of the first three attempts
  is resolved to what `setIpAddress` takes for an address, and those before it are denied.
-/

namespace Bg96.Modem

open Program

variable {self : BG96} {name ip : String} {size : Nat} {l said : List Exchange} {ok : Bool}

/-- The command of `BG96::resolveUrl`. -/
def qidnsgip (self : BG96) (name : String) : Format :=
  ⟨"AT+QIDNSGIP=%d,\"%s\"", [.int self.contextID, .str name]⟩

/-- The line with the error number, the number of addresses, and the time that they live. -/
def dnsReport : Format := ⟨"+QIURC: \"dnsgip\",%s\r\n", []⟩

/-- The numbers of a report. -/
def reported (vs : List Value) : List Int := scanInts 3 (strAt vs 0).toList

/-- The report is of an error. -/
def Fails (report : List Int) : Prop := ∃ err counts, report = err :: counts ∧ 0 < err

/-- The report is of addresses. -/
def Lists (report : List Int) (count : Int) : Prop := ∃ ttl, report = [0, count, ttl] ∧ 0 < count

theorem fails_cons {err : Int} {counts : List Int} : Fails (err :: counts) ↔ 0 < err := by
  simp [Fails]

theorem lists_cons {err count : Int} {counts : List Int} :
    Lists (err :: counts) count ↔ err = 0 ∧ (∃ ttl, counts = [count, ttl]) ∧ 0 < count := by
  constructor
  · rintro ⟨ttl, heq, hpos⟩
    obtain ⟨rfl, rfl⟩ := List.cons.inj heq
    exact ⟨rfl, ⟨ttl, rfl⟩, hpos⟩
  · rintro ⟨rfl, ⟨ttl, rfl⟩, hpos⟩
    exact ⟨ttl, rfl, hpos⟩

/-- What is said in `resolveUrl`, whether it succeeds, and `ipstr`. -/
inductive ResolveCase (self : BG96) (name : String) : List Exchange → Bool → String → Prop where
  | refused (sent : Bool) : ResolveCase self name
      [⟨.send (qidnsgip self name), sent⟩, ⟨.recv okFormat, none⟩] false ""
  | unreported (sent : Bool) (ok : List Value) : ResolveCase self name
      [⟨.send (qidnsgip self name), sent⟩, ⟨.recv okFormat, some ok⟩, ⟨.recv dnsReport, none⟩]
      true ""
  | failed (sent : Bool) (ok vs : List Value) (h : Fails (reported vs)) : ResolveCase self name
      [⟨.send (qidnsgip self name), sent⟩, ⟨.recv okFormat, some ok⟩, ⟨.recv dnsReport, some vs⟩]
      false ""
  | unlisted (sent : Bool) (ok vs : List Value) (h : ¬ Fails (reported vs))
      (h' : ∀ count, ¬ Lists (reported vs) count) : ResolveCase self name
      [⟨.send (qidnsgip self name), sent⟩, ⟨.recv okFormat, some ok⟩, ⟨.recv dnsReport, some vs⟩]
      true ""
  | unaddressed (sent : Bool) (ok vs : List Value) (count : Int) (h : Lists (reported vs) count) :
      ResolveCase self name
      [⟨.send (qidnsgip self name), sent⟩, ⟨.recv okFormat, some ok⟩, ⟨.recv dnsReport, some vs⟩,
        ⟨.recv dnsAddress, none⟩] false ""
  | resolved (sent : Bool) (ok vs : List Value) (count : Int) (h : Lists (reported vs) count)
      (address : List Value) (rest : List Exchange) : ResolveCase self name
      ([⟨.send (qidnsgip self name), sent⟩, ⟨.recv okFormat, some ok⟩, ⟨.recv dnsReport, some vs⟩,
        ⟨.recv dnsAddress, some address⟩] ++ rest) true (strAt address 0)

/-- The part of `resolveUrl` after a report of addresses. -/
theorem traces_listing (sent : Bool) (oks vs : List Value) {count : Int}
    (hlists : Lists (reported vs) count)
    (h : Traces (do
      match ← recvInto [(0, size)] dnsAddress with
      | some vs =>
        Parser.setTimeout bg96Wait1s
        discardAddresses (count - 1).toNat
        return (true, strAt vs 0)
      | none => return (false, "")) l (some (ok, ip))) :
    ResolveCase self name ([⟨.send (qidnsgip self name), sent⟩, ⟨.recv okFormat, some oks⟩,
      ⟨.recv dnsReport, some vs⟩] ++ spoken l) ok ip := by
  obtain ⟨address, l, rfl, -, haddress⟩ := traces_recvInto_bind.mp h
  rw [spoken_cons rfl]
  cases address with
  | none =>
    obtain ⟨rfl, ⟨⟩⟩ := traces_ret.mp haddress
    exact .unaddressed sent oks vs count hlists
  | some address =>
    obtain ⟨_, l, rfl, hrest⟩ := traces_call.mp haddress
    have hmap : Traces (discardAddresses (count - 1).toNat >>= fun _ =>
        .ret (true, strAt address 0)) l (some (ok, ip)) := hrest
    obtain ⟨_, _, ⟨⟩⟩ := traces_map_some.mp hmap
    exact .resolved sent oks vs count hlists address _

/-- The part of `resolveUrl` after the `OK`. -/
theorem traces_resolveAddress (sent : Bool) (vs : List Value)
    (h : Traces (resolveAddress size) l (some (ok, ip))) :
    ResolveCase self name
      ([⟨.send (qidnsgip self name), sent⟩, ⟨.recv okFormat, some vs⟩] ++ spoken l) ok ip := by
  obtain ⟨_, l, rfl, hreport⟩ := traces_call.mp h
  rw [spoken_silent rfl]
  change Traces (recvInto [(0, 50)] dnsReport >>= _) _ _ at hreport
  obtain ⟨report, l, rfl, -, hbody⟩ := traces_recvInto_bind.mp hreport
  rw [spoken_cons rfl]
  cases report with
  | none =>
    obtain ⟨rfl, ⟨⟩⟩ := traces_ret.mp hbody
    exact .unreported sent vs
  | some report =>
    change Traces (if (scanInts 3 (strAt report 0).toList).all isInt = true then _ else _) _ _
      at hbody
    split at hbody
    case isFalse => cases (traces_stop.mp hbody).2
    rcases hr : reported report with _ | ⟨err, counts⟩
    · simp only [show scanInts 3 (strAt report 0).toList = [] from hr] at hbody
      obtain ⟨rfl, ⟨⟩⟩ := traces_ret.mp hbody
      refine .unlisted sent vs report ?_ ?_
      · simp [Fails, hr]
      · simp [Lists, hr]
    · have hscan : scanInts 3 (strAt report 0).toList = err :: counts := hr
      simp only [hscan] at hbody
      split at hbody
      · rename_i herr
        obtain ⟨rfl, ⟨⟩⟩ := traces_ret.mp hbody
        exact .failed sent vs report (hr ▸ fails_cons.mpr herr)
      · rename_i herr
        have hfails : ¬ Fails (reported report) := hr ▸ mt fails_cons.mp herr
        split at hbody
        · rename_i count ttl
          split at hbody
          · rename_i hlists
            exact traces_listing sent vs report
              (hr ▸ lists_cons.mpr ⟨hlists.1, ⟨ttl, rfl⟩, hlists.2⟩) hbody
          · rename_i hlists
            obtain ⟨rfl, ⟨⟩⟩ := traces_ret.mp hbody
            refine .unlisted sent vs report hfails fun count' hcount => ?_
            obtain ⟨rfl, ⟨ttl', heq⟩, hpos⟩ := lists_cons.mp (hr ▸ hcount)
            cases heq
            exact hlists ⟨rfl, hpos⟩
        · rename_i hcounts
          obtain ⟨rfl, ⟨⟩⟩ := traces_ret.mp hbody
          refine .unlisted sent vs report hfails fun count hcount => ?_
          obtain ⟨-, ⟨ttl, rfl⟩, -⟩ := lists_cons.mp (hr ▸ hcount)
          exact hcounts count ttl rfl

theorem traces_resolveUrl (h : Traces (resolveUrl self name size) l (some (ok, ip))) :
    ResolveCase self name (spoken l) ok ip := by
  obtain ⟨_, hspoken, hbody⟩ := traces_locked_timed h
  rw [hspoken]
  obtain ⟨sent, l, rfl, hok⟩ := traces_call.mp hbody
  rw [spoken_cons rfl]
  obtain ⟨vs, l, rfl, hvs⟩ := traces_call.mp hok
  rw [spoken_cons rfl]
  cases vs with
  | none =>
    obtain ⟨rfl, ⟨⟩⟩ := traces_ret.mp hvs
    exact .refused sent
  | some vs => exact traces_resolveAddress sent vs hvs

/-- An address line is received, with this address. -/
def Resolved (self : BG96) (name : String) (said : List Exchange) (ip : String) : Prop :=
  ∃ sent ok vs address rest, said = [⟨.send (qidnsgip self name), sent⟩,
      ⟨.recv okFormat, some ok⟩, ⟨.recv dnsReport, some vs⟩,
      ⟨.recv dnsAddress, some address⟩] ++ rest ∧
    ip = strAt address 0

/-- There is no `OK`, or a report of an error, or the first address does not come. -/
def Denied (self : BG96) (name : String) (said : List Exchange) : Prop :=
  (∃ sent, said = [⟨.send (qidnsgip self name), sent⟩, ⟨.recv okFormat, none⟩]) ∨
  (∃ sent ok vs, said = [⟨.send (qidnsgip self name), sent⟩, ⟨.recv okFormat, some ok⟩,
      ⟨.recv dnsReport, some vs⟩] ∧ Fails (reported vs)) ∨
  ∃ sent ok vs, said = [⟨.send (qidnsgip self name), sent⟩, ⟨.recv okFormat, some ok⟩,
    ⟨.recv dnsReport, some vs⟩, ⟨.recv dnsAddress, none⟩]

/-- A received address is given. -/
theorem ResolveCase.of_resolved {ip' : String} (h : ResolveCase self name said ok ip)
    (hres : Resolved self name said ip') : ok = true ∧ ip = ip' := by
  obtain ⟨sent', ok', vs', address', rest', heq, rfl⟩ := hres
  cases h with
  | refused | unreported | failed | unlisted | unaddressed => simp at heq
  | resolved sent ok vs count hlists address rest =>
    obtain ⟨-, -, -, rfl, -⟩ : sent = sent' ∧ ok = ok' ∧ vs = vs' ∧ address = address' ∧
        rest = rest' := by
      simpa using heq
    exact ⟨rfl, rfl⟩

/-- `resolveUrl` fails if and only if the module denies the name. -/
theorem ResolveCase.denied_iff (h : ResolveCase self name said ok ip) :
    ok = false ↔ Denied self name said := by
  cases h with
  | refused sent => exact iff_of_true rfl (.inl ⟨sent, rfl⟩)
  | failed sent ok vs hfails => exact iff_of_true rfl (.inr (.inl ⟨sent, ok, vs, rfl, hfails⟩))
  | unaddressed sent ok vs count hlists => exact iff_of_true rfl (.inr (.inr ⟨sent, ok, vs, rfl⟩))
  | unreported sent ok => exact iff_of_false (by simp) (by simp [Denied])
  | unlisted sent ok vs hfails hlists =>
    refine iff_of_false (by simp) ?_
    rintro (⟨_, ⟨⟩⟩ | ⟨_, _, _, heq, hfails'⟩ | ⟨_, _, _, heq⟩)
    · obtain ⟨-, -, rfl⟩ : sent = _ ∧ ok = _ ∧ vs = _ := by simpa using heq
      exact hfails hfails'
    · simp at heq
  | resolved sent ok vs count hlists address rest =>
    refine iff_of_false (by simp) ?_
    rintro (⟨_, ⟨⟩⟩ | ⟨_, _, _, heq, -⟩ | ⟨_, _, _, heq⟩)
    · simp at heq
    · simp at heq

/-! ## `gethostbyname` -/

/-- The loop of `gethostbyname`. It does not change `iter`; `ipstr` has 25 characters. -/
def resolveLoop (self : BG96) (name : String) (iter : Nat) : Nat → At (Bool × String)
  | 0 => .stop
  | n + 1 =>
    if iter < 3 then do
      let (ok, ipstr) ← resolveUrl self name 25
      if ok then return (ok, ipstr) else resolveLoop self name iter n
    else return (false, "")

section SetIpAddress

/-! `SocketAddress::set_ip_address` gives whether the text represents an address, and the address
after it. -/

variable (setIpAddress : SocketAddress → String → Bool × SocketAddress)

/-- `BG96Interface::gethostbyname`, with the address after it. -/
def gethostbyname (n : Nat) (self : BG96) (name : String) (address : SocketAddress) :
    At (Int × SocketAddress) := do
  let (ok, ipstr) ← resolveLoop self name 0 n
  return if ok then (nsapiErrorOk, (setIpAddress address ipstr).2)
    else (nsapiErrorDeviceError, address)

/-- An attempt of `gethostbyname`. -/
abbrev Attempt (self : BG96) (name : String) := Round (resolveUrl self name 25)

variable {setIpAddress} {attempts : Nat → Attempt self name}

theorem resolveUrl_speaks (self : BG96) (name : String) : Speaks (resolveUrl self name 25) :=
  speaks_call

theorem resolveLoop_eq (n : Nat) :
    resolveLoop self name 0 n = (resolveUrl self name 25).until Prod.fst n := by
  induction n with
  | zero => rfl
  | succ n ih =>
    rw [resolveLoop, if_pos (by decide), Prog.until, ih]
    rfl

variable {address address' : SocketAddress} {rc : Int}

theorem traces_gethostbyname (n : Nat) :
    Traces (gethostbyname setIpAddress n self name address) l (some (rc, address')) ↔
      ∃ r, Traces ((resolveUrl self name 25).until Prod.fst n) l (some r) ∧
        (rc, address') = if r.1 then (nsapiErrorOk, (setIpAddress address r.2).2)
          else (nsapiErrorDeviceError, address) := by
  rw [gethostbyname, resolveLoop_eq]
  exact traces_map_some

/-- `gethostbyname` returns after the first attempt that succeeds. -/
theorem gethostbyname_iff (k : Nat) :
    (∃ n, Traces (gethostbyname setIpAddress n self name address) (saidIn attempts k)
        (some (rc, address'))) ↔
      ∃ j, k = j + 1 ∧ (∀ i < j, (attempts i).result.1 = false) ∧ (attempts j).result.1 = true ∧
        rc = nsapiErrorOk ∧ address' = (setIpAddress address (attempts j).result.2).2 := by
  simp only [traces_gethostbyname]
  constructor
  · rintro ⟨n, r, h, hr⟩
    cases k with
    | zero => exact absurd h (speaks_until (resolveUrl_speaks self name) n r)
    | succ j =>
      obtain ⟨hnot, hdone, rfl⟩ := (traces_until _ (resolveUrl_speaks self name) j).mp ⟨n, h⟩
      rw [if_pos hdone] at hr
      obtain ⟨rfl, rfl⟩ := Prod.mk.inj hr
      exact ⟨j, rfl, hnot, hdone, rfl, rfl⟩
  · rintro ⟨j, rfl, hnot, hdone, rfl, rfl⟩
    obtain ⟨n, h⟩ := (traces_until _ (resolveUrl_speaks self name) j).mpr ⟨hnot, hdone, rfl⟩
    exact ⟨n, _, h, by rw [if_pos hdone]⟩

variable (setIpAddress) in
/-- Resolution is bounded and honest: `gethostbyname` returns after at most three attempts, each of
which succeeds only with a received address. It sets the address to that of an attempt that is
resolved, or else it gives an error, and then it leaves the address alone. -/
def BoundedAndHonest (attempts : Nat → Attempt self name) (address : SocketAddress) : Prop :=
  ∃ k ≤ 3, ∃ n rc address',
    Traces (gethostbyname setIpAddress n self name address) (saidIn attempts k)
      (some (rc, address')) ∧
    (∀ j < k, (attempts j).result.1 = true →
      Resolved self name (spoken (attempts j).trace) (attempts j).result.2) ∧
    ((∃ j < k, ∃ ip, Resolved self name (spoken (attempts j).trace) ip ∧ rc = nsapiErrorOk ∧
        setIpAddress address ip = (true, address')) ∨
      (∀ j < k, ∀ ip, ¬ Resolved self name (spoken (attempts j).trace) ip) ∧ rc ≠ nsapiErrorOk ∧
        address' = address)

variable (setIpAddress) in
/-- **Name resolution** is bounded and honest if and only if one of the first three attempts is
resolved to a text that represents an address, and the module denies the name in those before it. -/
theorem resolution_iff (self : BG96) (name : String) (attempts : Nat → Attempt self name)
    (address : SocketAddress) :
    BoundedAndHonest setIpAddress attempts address ↔
      ∃ j < 3, (∃ ip, Resolved self name (spoken (attempts j).trace) ip ∧
          (setIpAddress address ip).1 = true) ∧
        ∀ i < j, Denied self name (spoken (attempts i).trace) := by
  have hcase (j : Nat) : ResolveCase self name (spoken (attempts j).trace) _ _ :=
    traces_resolveUrl (attempts j).made
  constructor
  · rintro ⟨_, hk, n, rc, address', htrace, hhonest, hset⟩
    obtain ⟨j, rfl, hnot, hok, rfl, -⟩ := (gethostbyname_iff _).mp ⟨n, htrace⟩
    obtain ⟨i, hi, ip, hres, -, htrue⟩ := hset.resolve_right fun h => h.2.1 rfl
    -- an attempt before the last one fails, and is not resolved
    obtain rfl : i = j := by
      rcases Nat.lt_succ_iff_lt_or_eq.mp hi with hlt | rfl
      · have hfailed := hnot i hlt
        rw [((hcase i).of_resolved hres).1] at hfailed
        cases hfailed
      · rfl
    refine ⟨i, hk, ⟨ip, hres, by rw [htrue]⟩, fun i' hi' => ?_⟩
    exact (hcase i').denied_iff.mp (hnot i' hi')
  · rintro ⟨j, hj, ⟨ip, hres, htrue⟩, hdenied⟩
    obtain ⟨hok, hip⟩ := (hcase j).of_resolved hres
    have hnot (i : Nat) (hi : i < j) := (hcase i).denied_iff.mpr (hdenied i hi)
    obtain ⟨n, htrace⟩ := (gethostbyname_iff (j + 1)).mpr ⟨j, rfl, hnot, hok, rfl, rfl⟩
    refine ⟨j + 1, hj, n, _, _, htrace, fun i hi hi' => ?_,
      .inl ⟨j, Nat.lt_succ_self j, ip, hres, rfl, ?_⟩⟩
    · rcases Nat.lt_succ_iff_lt_or_eq.mp hi with hlt | rfl
      · rw [hnot i hlt] at hi'
        cases hi'
      · rw [hip]
        exact hres
    · rw [hip]
      exact Prod.ext htrue rfl

end SetIpAddress

/-- The module refuses the command. -/
def refusedAttempt : Attempt .ctor "example.org" where
  trace := [⟨.lock, ()⟩, ⟨.setTimeout bg96Wait1s, ()⟩, ⟨.send (qidnsgip .ctor "example.org"), true⟩,
    ⟨.recv okFormat, none⟩, ⟨.setTimeout atTimeout, ()⟩, ⟨.unlock, ()⟩]
  result := (false, "")
  made := traces_iff_replay.mpr rfl

/-- The module refuses each attempt: `gethostbyname` does not return. -/
theorem resolution_iff_refused : ¬ ∀ setIpAddress self name (attempts : Nat → Attempt self name)
    address, BoundedAndHonest setIpAddress attempts address := by
  intro h
  obtain ⟨k, -, n, rc, address', htrace, -⟩ :=
    h (fun address ip => (true, { address with ip := ip })) .ctor "example.org"
      (fun _ => refusedAttempt) ⟨"", 0⟩
  obtain ⟨j, -, -, hok, -⟩ := (gethostbyname_iff k).mp ⟨n, htrace⟩
  cases hok

end Bg96.Modem
