import BG96Driver.Lib.Walk
import BG96Driver.Tls.Socket
import Mathlib.Logic.Function.Basic

/-!
# The credentials of a TLS client

`set_privkey_pem` configures its file with `configure_client_cert_path`. The key file becomes the
client certificate, and no file is configured as the key.

* `Storage`: the files of the modem and the settings of its SSL contexts. `modem`: how the modem
  answers. It does what a command says before it answers `OK`, and what it does with a command that
  is not answered is open.
* `setClientCertKey_spec`: what a successful call of `set_client_cert_key` has done.
* `Right`: the settings name the files of the certificate and of the key.
* `client_cert_is_key`: after successful calls of `set_client_cert_key` they never do.
-/

namespace Bg96.Tls

open Program Modem Transitions

/-! ## The modem -/

/-- The files of the modem, and the settings of its SSL contexts. -/
structure Storage where
  files : String → Option (List UInt8)
  cacert : Int → Option String
  clientcert : Int → Option String
  clientkey : Int → Option String

namespace Storage

def put (st : Storage) (name : String) (bytes : List UInt8) : Storage :=
  { st with files := Function.update st.files name (some bytes) }

def delete (st : Storage) (name : String) : Storage :=
  { st with files := Function.update st.files name none }

def setCacert (st : Storage) (ctx : Int) (path : String) : Storage :=
  { st with cacert := Function.update st.cacert ctx (some path) }

def setClientcert (st : Storage) (ctx : Int) (path : String) : Storage :=
  { st with clientcert := Function.update st.clientcert ctx (some path) }

def setClientkey (st : Storage) (ctx : Int) (path : String) : Storage :=
  { st with clientkey := Function.update st.clientkey ctx (some path) }

/-- A command is done. -/
def exec (st : Storage) (cmd : Format) : Storage :=
  match cmd.args with
  | [.int ctx, .str path] =>
    if cmd.text = "AT+QSSLCFG=\"cacert\",%d,\"%s\"" then st.setCacert ctx path
    else if cmd.text = "AT+QSSLCFG=\"clientcert\",%d,\"%s\"" then st.setClientcert ctx path
    else if cmd.text = "AT+QSSLCFG=\"clientkey\",%d,\"%s\"" then st.setClientkey ctx path
    else st
  | [.str filename] => if cmd.text = "AT+QFDEL=\"%s\"" then st.delete filename else st
  | _ => st

end Storage

/-- The file that a command uploads. -/
def uploadName (cmd : Format) : Option String :=
  match cmd.args with
  | [.str filename, .int _] => if cmd.text = "AT+QFUPL=\"%s\",%d" then some filename else none
  | _ => none

/-- The modem: its storage, the command that it works on and the file that is uploaded. -/
structure Module where
  storage : Storage
  pending : Option Format
  upload : Option (String × List UInt8)

/-- The pending command is done. -/
def Module.finish (m : Module) : Module :=
  { m with storage := m.pending.elim m.storage m.storage.exec, pending := none }

/-- The upload begins that the pending command asks for. -/
def Module.begin (m : Module) : Module :=
  { m with pending := none, upload := (m.pending.bind uploadName).map fun name => (name, []) }

/-- The uploaded file is stored. -/
def Module.store (m : Module) : Module :=
  { m with storage := m.upload.elim m.storage fun u => m.storage.put u.1 u.2, upload := none }

/-- What the modem has done when it sends a line. -/
def Module.reached (m : Module) (pattern : Format) : Module :=
  if pattern = okFormat then m.finish
  else if pattern = ⟨"CONNECT", []⟩ then m.begin
  else if pattern = qfupl then m.store
  else m

/-- The answers of the calls, and what the modem does. A line that is not received may have been
sent. -/
def modem : Env Module Modem.Call Modem.Call.Reply := fun m c r m' =>
  match c, r with
  | .send cmd, _ => m' = { m with pending := some cmd }
  | .recv pattern, some _ => m' = m.reached pattern
  | .recv pattern, none => m' = m ∨ m' = m.reached pattern
  | .putc c, _ => m' = { m with upload := m.upload.map fun u => (u.1, u.2 ++ [c]) }
  | _, _ => m' = m

/-! ## What the operations of `BG96` do -/

variable {α : Type} {Q : α → Module → Prop} {p : At α} {m : Module}

theorem wp_modem_locked (h : wp modem True Q p m) : wp modem True Q (locked p) m :=
  wp_locked (fun _ _ _ => id) (fun _ _ _ => id) h

theorem wp_modem_timed {ms : Int} (h : wp modem True Q p m) : wp modem True Q (timed ms p) m :=
  wp_timed (fun _ _ _ _ => id) h

theorem recvOk_storage (m : Module) :
    wp modem True (fun ok m' => m'.storage = m.finish.storage ∨
      ok = false ∧ m'.storage = m.storage) recvOk m := by
  intro r m' hr
  cases r with
  | some vs =>
    obtain rfl : m' = m.finish := hr
    exact .inl rfl
  | none =>
    obtain rfl | rfl : m' = m ∨ m' = m.finish := hr
    · exact .inr ⟨rfl, rfl⟩
    · exact .inl rfl

/-- A command that is answered is done. -/
theorem command_storage (cmd : Format) (m : Module) :
    wp modem True (fun ok m' => m'.storage = m.storage.exec cmd ∨
      ok = false ∧ m'.storage = m.storage) (command cmd) m := by
  rintro sent _ rfl
  cases sent with
  | false => exact .inr ⟨rfl, rfl⟩
  | true => exact recvOk_storage { m with pending := some cmd }

/-- A query, that is a command that changes nothing. -/
theorem query_storage {cmd pattern : Format} (m : Module) (hcmd : m.storage.exec cmd = m.storage)
    (hpattern : ∀ m : Module, m.reached pattern = m) :
    wp modem True (fun _ m' => m'.storage = m.storage) (query cmd pattern) m := by
  rintro sent _ rfl
  cases sent with
  | false => rfl
  | true =>
    intro r m' hr
    cases r with
    | none =>
      obtain rfl : m' = { m with pending := some cmd } := by
        rcases hr with rfl | rfl
        · rfl
        · exact hpattern _
      rfl
    | some vs =>
      obtain rfl : m' = { m with pending := some cmd } := hr.trans (hpattern _)
      show wp modem True _ (recvOk >>= _) _
      rw [wp_bind]
      refine wp_mono (recvOk_storage _) fun ok m' hm' => ?_
      have hstorage : m'.storage = m.storage := by
        rcases hm' with h | ⟨-, h⟩
        · exact h.trans hcmd
        · exact h
      cases ok <;> exact hstorage

theorem fileExists_storage (filename : String) (m : Module) :
    wp modem True (fun _ m' => m'.storage = m.storage) (fileExists filename) m := by
  show wp modem True _ (sprintfCommand _ _ >>= fun _ => locked _ >>= _) m
  rw [wp_bind]
  refine wp_sprintfCommand trivial fun _ => ?_
  rw [wp_bind]
  have hquery : wp modem True (fun _ m' => m'.storage = m.storage) (query
      ⟨"AT+QFLST=\"%s\"", [.str filename]⟩ ⟨"+QFLST: \"%[^\"]\",%d", []⟩) m :=
    query_storage m rfl fun _ => rfl
  refine wp_mono (wp_modem_locked (wp_modem_timed (wp_queryInto trivial hquery))) ?_
  intro vs m' hm'
  cases vs <;> exact hm'

theorem deleteFile_storage (filename : String) (m : Module) :
    wp modem True (fun ok m' => ok = true → m'.storage = m.storage.delete filename)
      (deleteFile filename) m := by
  show wp modem True _ (sprintfCommand _ _ >>= _) m
  rw [wp_bind]
  refine wp_sprintfCommand trivial fun _ => ?_
  refine wp_mono (wp_modem_locked (command_storage (qfdel filename) m)) ?_
  rintro ok m' (h | ⟨rfl, -⟩)
  · exact fun _ => h
  · exact nofun

/-- The loop that uploads a file sends all its bytes, if it ends. -/
theorem putBytes_upload (name : String) {bits size : Nat} (data sent : List UInt8) {i : Nat}
    (hsize : i + data.length = size) (hi : i < 2 ^ bits) (m : Module)
    (hm : m.upload = some (name, sent)) :
    wp modem True (fun _ m' => m' = { m with upload := some (name, sent ++ data) })
      (putBytes bits size i data) m := by
  refine wp_mono (wp_putBytes_fold (fun _ _ _ _ => id) data hsize hi m) ?_
  rintro _ _ rfl
  clear hsize
  induction data generalizing m sent with
  | nil =>
    rw [List.append_nil, ← hm]
    rfl
  | cons c data ih => exact (ih (sent ++ [c]) _ (by simp [hm])).trans (by simp)

theorem connectData_upload {cmd : Format} (name : String) (hcmd : uploadName cmd = some name)
    (m : Module) :
    wp modem True (fun ok m' => ok = true → m' = ⟨m.storage, none, some (name, [])⟩)
      (connectData cmd) m := by
  rintro sent _ rfl
  cases sent with
  | false => exact nofun
  | true =>
    intro r m' hr
    cases r with
    | none => exact nofun
    | some vs =>
      intro _
      obtain rfl : m' = Module.begin { m with pending := some cmd } := hr
      simp [Module.begin, hcmd]

theorem uploadFile_storage (content : Chars) (filename : String) (m : Module) :
    wp modem True (fun r m' => r ≠ 0 → m'.storage = m.storage.put filename (content ++ [0]))
      (uploadFile content filename) m := by
  show wp modem True _ (sprintfCommand _ _ >>= _) m
  rw [wp_bind]
  refine wp_sprintfCommand trivial fun _ => wp_modem_locked (wp_modem_timed ?_)
  show wp modem True _ (connectData _ >>= _) m
  rw [wp_bind]
  refine wp_mono (connectData_upload filename rfl m) fun ok m' hm' => ?_
  cases ok with
  | false => exact fun h => absurd rfl h
  | true =>
    obtain rfl := hm' rfl
    show wp modem True _ (putBytes _ _ _ _ >>= _) _
    rw [wp_bind]
    refine wp_mono (putBytes_upload filename (content ++ [0]) [] (by simp) (by decide) _ rfl) ?_
    rintro _ _ rfl _ _ rfl r m' hr
    cases r with
    | none => exact fun h => absurd rfl h
    | some vs =>
      obtain rfl : m' = Module.store _ := hr
      show wp modem True _ (recvOk >>= _) _
      rw [wp_bind]
      refine wp_mono (recvOk_storage _) ?_
      rintro ok m' (h | ⟨-, h⟩) - <;> exact h

/-- A file that is sent has replaced the one of its name. -/
theorem sendFile_storage (content : Chars) (filename : String) (m : Module) :
    wp modem True (fun r m' => r ≠ 0 → m'.storage = m.storage.put filename (content ++ [0]))
      (sendFile content filename true) m := by
  show wp modem True _ ((fileExists filename >>= _) >>= _) m
  rw [wp_bind, wp_bind]
  refine wp_mono (fileExists_storage filename m) fun there m' hm' => ?_
  cases there with
  | false =>
    show wp modem True _ (uploadFile content filename >>= _) m'
    rw [wp_bind, ← hm']
    exact uploadFile_storage content filename m'
  | true =>
    show wp modem True _ (deleteFile filename >>= _) m'
    rw [wp_bind, ← hm']
    refine wp_mono (deleteFile_storage filename m') fun deleted m'' hm'' => ?_
    cases deleted with
    | false => exact fun h => absurd rfl h
    | true =>
      show wp modem True _ (uploadFile content filename >>= _) m''
      rw [wp_bind]
      refine wp_mono (uploadFile_storage content filename m'') fun r t ht hr => ?_
      rw [ht hr, hm'' rfl]
      simp [Storage.put, Storage.delete]

theorem configureClientCertPath_storage (self : BG96TLSSocket) (path : String) (m : Module) :
    wp modem True (fun r m' => r ≠ 0 → m'.storage = m.storage.setClientcert self.sslctxId path)
      (configureClientCertPath self path) m := by
  show wp modem True _ ((_ >>= _) >>= _) m
  rw [wp_bind, wp_bind]
  refine wp_mono (wp_modem_locked (command_storage _ m)) ?_
  rintro ok m' (h | ⟨rfl, -⟩)
  · cases ok with
    | false => exact fun h => absurd rfl h
    | true => exact fun _ => h
  · exact fun h => absurd rfl h

/-! ## `set_client_cert_key` -/

variable {self : BG96TLSSocket}

/-- A file that `set_cert_pem` or `set_privkey_pem` has set is the client certificate. -/
theorem setPem_storage (filename : String) (pem : Chars) (m : Module) :
    wp modem True (fun rc m' => rc = nsapiErrorOk → m'.storage =
      (m.storage.put filename (pem ++ [0])).setClientcert self.sslctxId filename)
      (setPem filename (configureClientCertPath self) (some pem)) m := by
  show wp modem True _ (sendFile pem filename true >>= _) m
  rw [wp_bind]
  refine wp_mono (sendFile_storage pem filename m) fun r m' hm' => ?_
  by_cases hr : r = 0
  · rw [if_neg (not_not.mpr hr)]
    exact fun h => absurd h (by decide)
  · rw [if_pos hr, wp_bind]
    refine wp_mono (configureClientCertPath_storage self filename m') fun rc t ht => ?_
    by_cases hrc : rc = 0
    · rw [if_neg (not_not.mpr hrc)]
      exact fun h => absurd h (by decide)
    · rw [if_pos hrc]
      intro _
      rw [ht hrc, hm' hr]

/-- What a successful `set_client_cert_key` has done: both files are stored, and each was configured
as the client certificate. -/
theorem setClientCertKey_spec (cert key : Chars) (m : Module) :
    wp modem True (fun rc m' => rc = nsapiErrorOk → m'.storage =
      (((m.storage.put "clientcert.pem" (cert ++ [0])).setClientcert self.sslctxId
        "clientcert.pem").put "privkey.pem" (key ++ [0])).setClientcert self.sslctxId "privkey.pem")
      (setClientCertKey self (some cert) (some key)) m := by
  show wp modem True _ (setPem _ _ (some cert) >>= _) m
  rw [wp_bind]
  refine wp_mono (setPem_storage "clientcert.pem" cert m) fun rc m' hm' => ?_
  dsimp only
  by_cases hrc : rc = nsapiErrorOk
  · rw [if_pos ⟨hrc, rfl⟩, ← hm' hrc]
    exact setPem_storage "privkey.pem" key m'
  · rw [if_neg fun h => hrc h.1]
    exact fun h => absurd h hrc

/-- A call of `set_client_cert_key` with a certificate and a key, which succeeds. -/
def Called (self : BG96TLSSocket) (m : Module) (pems : Chars × Chars) (m' : Module) : Prop :=
  Runs modem (setClientCertKey self (some pems.1) (some pems.2)) m (some nsapiErrorOk) m'

/-- The setting `clientcert` names the file of the certificate and `clientkey` the one of the key,
and the key file is not configured as the certificate. -/
structure Right (tls : BG96TLSSocket) (cert key : Chars) (st : Storage) : Prop where
  cert : ∃ name, st.clientcert tls.sslctxId = some name ∧ st.files name = some (cert ++ [0])
  key : ∃ name, st.clientkey tls.sslctxId = some name ∧ st.files name = some (key ++ [0])
  apart : st.clientcert tls.sslctxId ≠ some "privkey.pem"

theorem Called.storage {m m' : Module} {cert key : Chars} (h : Called self m (cert, key) m') :
    m'.storage.clientcert self.sslctxId = some "privkey.pem" ∧
    m'.storage.clientkey = m.storage.clientkey ∧
    m'.storage.files "clientcert.pem" = some (cert ++ [0]) ∧
    m'.storage.files "privkey.pem" = some (key ++ [0]) := by
  rw [h.ends (setClientCertKey_spec cert key m) rfl]
  refine ⟨?_, rfl, ?_, ?_⟩
  · simp [Storage.setClientcert]
  · simp [Storage.setClientcert, Storage.put]
  · simp [Storage.setClientcert, Storage.put]

/-- **The key is configured as the certificate.** After any successful calls of
`set_client_cert_key`, whatever the modem does, the files of the last certificate and key are
stored, the key file is the client certificate, and the setting of the key is what it was. So the
settings are not right, and if the certificate and the key differ, none names the certificate. -/
theorem client_cert_is_key {m₀ m m' : Module} {cert key : Chars}
    {hist : List (Module × (Chars × Chars) × Module)}
    (h : Walk (Called self) m₀ ((m, (cert, key), m') :: hist) m') :
    m'.storage.clientcert self.sslctxId = some "privkey.pem" ∧
    m'.storage.clientkey = m₀.storage.clientkey ∧
    m'.storage.files "clientcert.pem" = some (cert ++ [0]) ∧
    m'.storage.files "privkey.pem" = some (key ++ [0]) ∧
    ¬ Right self cert key m'.storage ∧
    (cert ≠ key → ¬ ∃ name, m'.storage.clientcert self.sslctxId = some name ∧
      m'.storage.files name = some (cert ++ [0])) := by
  have hkey : m'.storage.clientkey = m₀.storage.clientkey :=
    h.keeps (I := fun m => m.storage.clientkey = m₀.storage.clientkey) rfl
      fun _ _ _ hs hc => hc.storage.2.1.trans hs
  cases h with
  | cons h hs =>
    obtain ⟨hcert, -, hcertFile, hkeyFile⟩ := hs.storage
    refine ⟨hcert, hkey, hcertFile, hkeyFile, fun hr => hr.apart hcert, fun hne => ?_⟩
    rintro ⟨name, hname, hfile⟩
    obtain rfl : "privkey.pem" = name := Option.some.inj (hcert.symm.trans hname)
    rw [hkeyFile, Option.some.injEq, List.append_cancel_right_eq] at hfile
    exact hne hfile.symm

/-- A modem that has no file, and does and answers everything. -/
def obliging (m : Module) : (c : Modem.Call) → c.Reply × Module
  | .send cmd => (true, { m with pending := some cmd })
  | .recv pattern =>
    if pattern.text = "+QFLST: \"%[^\"]\",%d" then (none, m) else (some [], m.reached pattern)
  | .putc c => (c.toNat, { m with upload := m.upload.map fun u => (u.1, u.2 ++ [c]) })
  | .lock | .unlock | .setTimeout _ | .debugOn _ | .flush => ((), m)
  | .readable | .writable => (true, m)
  | .write _ | .readMs _ => ((0 : Int), m)
  | .read _ => ((0, []), m)
  | .getc => (none, m)

theorem modem_obliging (m : Module) (c : Modem.Call) :
    modem m c (obliging m c).1 (obliging m c).2 := by
  cases c with
  | recv pattern =>
    simp only [obliging]
    split
    · exact .inl rfl
    · rfl
  | _ => rfl

/-- A modem that stores nothing. -/
def empty : Module := ⟨⟨fun _ => none, fun _ => none, fun _ => none, fun _ => none⟩, none, none⟩

/-- After a call with a certificate and a key of one character each. -/
def configured : Module :=
  ((setClientCertKey .ctor (some [67]) (some [75])).eval obliging empty).2

theorem called_configured : Called .ctor empty ([67], [75]) configured := by
  have h := runs_eval modem_obliging (setClientCertKey .ctor (some [67]) (some [75])) empty
  have hok : ((setClientCertKey .ctor (some [67]) (some [75])).eval obliging empty).1 =
      some nsapiErrorOk := by decide
  rwa [hok] at h

theorem client_cert_is_key_configured :
    configured.storage.clientcert 0 = some "privkey.pem" ∧
    configured.storage.files "privkey.pem" = some [75, 0] ∧ configured.storage.clientkey 0 = none := by
  have h := client_cert_is_key (.cons .nil called_configured)
  refine ⟨h.1, h.2.2.2.1, ?_⟩
  rw [h.2.1]
  rfl

/-- A successful call does not make the settings right. -/
theorem client_cert_is_key_not_right :
    ¬ ∀ self m cert key m', Called self m (cert, key) m' → Right self cert key m'.storage := by
  intro h
  have hright := h _ _ _ _ _ called_configured
  exact hright.apart called_configured.storage.1

end Bg96.Tls
