import BG96Driver.File.Implementation
import BG96Driver.Modem.Transfer

/-!
# Upload and download

`fs_file_size` reads the size with a pattern that ends in `%u`, and `recv` returns after its first
digit. `fs_download_file` waits for `CONNECT`, and its bytes begin with the end of that line.

* `wp_reporting`: a command, and then `_fs_error`.
* `GivesBack`: a download after an upload that has succeeded gives the file.
* `upload_download_iff`: the file comes back if and only if it is short and all of it is the end of
  the line `CONNECT`, repeated.
-/

namespace Bg96.File

open Program Modem

variable {α : Type} {S : Type} {E : Env S Modem.Call Modem.Call.Reply} {T : Prop} {s : S}

/-- A command, and then `_fs_error`. -/
theorem wp_reporting {c : Call} {ok : c.Reply → Bool} {f : c.Reply → Fs α} {error : FsError}
    {Q : α × FsError → S → Prop}
    (h : wp E T (fun r s' =>
      if ok r.1 then wp E T Q ((f r.1).interp handler noError) s'
      else wp E T (fun e s'' => wp E T Q ((f r.1).interp handler e) s'') (getError r.2) s')
      (handler error c) s) :
    wp E T Q ((reporting c ok >>= f).interp handler error) s := by
  rw [reporting_bind, interp_call, wp_bind]
  refine wp_mono h fun r s' hr => ?_
  split
  · rwa [if_pos ‹_›] at hr
  · rw [if_neg ‹_›] at hr
    show wp E T Q ((getError r.2 >>= fun e => .ret ((), e)) >>= fun e =>
      (f r.1).interp handler e.2) s'
    rw [Prog.bind_assoc, wp_bind]
    exact hr

/-- `BG96::getError` returns. -/
theorem getError_returns {error : FsError} {Q : FsError → S → Prop} (hQ : ∀ e s, Q e s) :
    wp E T Q (getError error) s := by
  rintro - _ - (_ | _) _ -
  · exact fun _ _ _ => hQ _ _
  · rintro (_ | vs) _ -
    · exact fun _ _ _ => hQ _ _
    · exact fun _ _ _ _ _ _ => hQ _ _

/-- An operation of one command that returns `g` of its reply. What it does to `_fs_error` after a
failure may change the state. -/
theorem wp_reporting_ret {c : Call} {ok : c.Reply → Bool} {f : c.Reply → Fs α} {error : FsError}
    {Q : α × FsError → S → Prop} (g : c.Reply → α) (hf : ∀ r, f r = .ret (g r))
    (h : wp E T (fun r s' =>
      if ok r.1 then Q (g r.1, noError) s' else ∀ e s'', Q (g r.1, e) s'') (handler error c) s) :
    wp E T Q ((reporting c ok >>= f).interp handler error) s := by
  refine wp_reporting (wp_mono h fun r s' hr => ?_)
  rw [hf]
  split
  · rwa [if_pos ‹_›] at hr
  · rw [if_neg ‹_›] at hr
    exact getError_returns hr

/-! ## The operations -/

/-- All of it is the end of a line, repeated: the bytes that come before it in a download. -/
def Repeats (content : List UInt8) : Prop := (crlf ++ content).take content.length = content

instance (content : List UInt8) : Decidable (Repeats content) :=
  inferInstanceAs (Decidable (_ = content))

variable {checksum : List UInt8 → Nat} {mayRefuse : Format → Prop} {name : String}
  {data content : List UInt8} {n : Nat} {error : FsError}

variable (checksum mayRefuse name error)

/-- `fs_upload_file` succeeds if the module accepts the upload. -/
theorem uploadFile_spec {s : Storage} (hrest : AtRest s.unread) (h0 : 0 < n) (hn : n < 2 ^ 16)
    (hdata : n ≤ data.length) :
    wp (serial checksum mayRefuse) False (fun up s' =>
        up.1 ≠ (0 : Int) ∧
          (mayRefuse ⟨"AT+QFUPL=\"%s\",%u", [.str name, .int n]⟩ ∨ ¬ Quotable name) ∨
        Quotable name ∧ up.1 = (0 : Int) ∧ Uploaded s' name (data.take n))
      ((Op.uploadFile name data n).at error) s := by
  refine wp_reporting_ret (fun r => if isOk r.1 && r.2 = n then 0 else -1) (fun _ => rfl) ?_
  show wp _ _ _ (Modem.fsUploadFile name data n >>= _) _
  rw [wp_bind]
  refine wp_mono (fsUploadFile_spec hrest h0 hn hdata) fun r s' hr => ?_
  obtain ⟨rc, lsize⟩ := r
  show if isOk rc && decide (lsize = n) then _ else _
  rcases hr with ⟨hne, hwhy⟩ | ⟨hq, heq, hs'⟩
  · have hno : (isOk rc && decide (lsize = n)) = false := by simp [isOk, hne]
    rw [if_neg (by simp [hno])]
    refine fun _ _ => .inl ⟨?_, hwhy⟩
    show (if isOk rc && decide (lsize = n) then (0 : Int) else -1) ≠ 0
    simp [hno]
  · obtain ⟨rfl, rfl⟩ := Prod.mk.inj heq
    have hok : (isOk nsapiErrorOk && decide ((n : Int) = n)) = true := by simp [isOk]
    rw [if_pos hok]
    exact .inr ⟨hq, if_pos hok, hs'⟩

/-- The part of `fs_download_file` after the size. -/
def fetch (name : String) (size : Nat) : Fs (Int × Option Int × List UInt8) := do
  let (rc, fsize, checksum, data) ← reporting (.fsDownloadFile name size) fun r => isOk r.1
  return (if isOk rc then fsize else 0, checksum, data)

omit name in
/-- What `BG96::fs_download_file` gives is what this part returns. -/
theorem fetch_spec {s : S} (name : String) (size : Nat)
    {R : Int × Int × Option Int × List UInt8 → Prop}
    (h : wp E T (fun r _ => R r) (Modem.fsDownloadFile name size) s) :
    wp E T (fun down _ => ∃ r, R r ∧
        down.1 = (if isOk r.1 then r.2.1 else 0, r.2.2.1, r.2.2.2))
      ((fetch name size).interp handler error) s := by
  refine wp_reporting_ret (fun r => (if isOk r.1 then r.2.1 else 0, r.2.2.1, r.2.2.2))
    (fun _ => rfl) ?_
  show wp _ _ _ (Modem.fsDownloadFile name size >>= _) _
  rw [wp_bind]
  refine wp_mono h fun r s' hr => ?_
  show if isOk r.1 then _ else _
  by_cases hok : isOk r.1 = true
  · rw [if_pos hok]
    exact ⟨r, hr, rfl⟩
  · rw [if_neg hok]
    exact fun _ _ => ⟨r, hr, rfl⟩

/-- `fs_download_file` of a file that is there. A name that does not fit may be stored beyond its
array. -/
theorem downloadFile_spec {s : Storage} (hmay : ∀ cmd, mayRefuse cmd → MayRefuse cmd)
    (hq : Quotable name) (h0 : 0 < content.length) (hn : content.length < 2 ^ 16)
    (hs : Uploaded s name content) :
    wp (serial checksum mayRefuse) (¬ Modem.Fits name) (fun down _ =>
        down.1.1 = (content.length : Int) ∧ down.1.2.2 = content ↔
          Modem.Fits name ∧ content.length < 10 ∧ Repeats content)
      ((Op.downloadFile name).at error) s := by
  obtain ⟨hunread, hfile⟩ := hs
  have hlist : ¬ mayRefuse ⟨"AT+QFLST=\"%s\"", [.str name]⟩ := fun h =>
    hmay _ h (show "AT+QFLST=\"%s\"" ∈ readCommands by decide)
  have hfetch : ¬ mayRefuse ⟨"AT+QFDWL=\"%s\"", [.str name]⟩ := fun h =>
    hmay _ h (show "AT+QFDWL=\"%s\"" ∈ readCommands by decide)
  show wp _ _ _ (((reporting (.fsFileSize name) _ >>= _) >>= fun fsize : Int =>
    fetch name fsize.toNat).interp handler error) s
  rw [Prog.bind_assoc]
  refine wp_reporting ?_
  show wp _ _ _ (Modem.fsFileSize name >>= _) _
  rw [wp_bind]
  by_cases hfits : Modem.Fits name
  · refine fsFileSize_fits hlist hq hfits (.inr hunread) hfile ?_
    show wp _ _ _ ((fetch name (firstDigit content.length)).interp handler noError) _
    have hle : firstDigit content.length ≤ content.length := by
      have hlt := firstDigit_lt content.length
      by_cases h10 : content.length < 10
      · rw [firstDigit_of_lt h10]
      · omega
    refine wp_mono (fetch_spec noError name _
      (fsDownloadFile_spec hfetch (.inr rfl) hfile hle)) ?_
    rintro down _ ⟨r, ⟨hdata, hsize, hok⟩, hdown⟩
    rw [hdown]
    by_cases h10 : content.length < 10
    · rw [firstDigit_of_lt h10] at hdata hsize hok
      constructor
      · rintro ⟨-, hcontent⟩
        exact ⟨hfits, h10, hdata.symm.trans hcontent⟩
      · rintro ⟨-, -, hcontent⟩
        have hr := hok rfl (by omega) hcontent
        exact ⟨(if_pos (by simp [isOk, hr])).trans (hsize hr), hdata.trans hcontent⟩
    · refine iff_of_false (fun h => ?_) fun h => h10 h.2.1
      have hlt := firstDigit_lt content.length
      have hsum : (if isOk r.1 then r.2.1 else 0) = (content.length : Int) := h.1
      split at hsum
      · rw [hsize (by simpa [isOk] using ‹isOk r.1 = true›)] at hsum
        omega
      · omega
  · refine fsFileSize_unfit hlist hq hfits (.inr hunread) hfile hfits ?_
    refine getError_returns fun e s' => ?_
    show wp _ _ _ ((fetch name 0).interp handler e) _
    refine wp_mono (fetch_spec e name 0 (fsDownloadFile_size name 0 s')) ?_
    rintro down _ ⟨r, hr, hdown⟩
    rw [hdown]
    refine iff_of_false (fun h => ?_) fun h => hfits h.1
    have hsum : (if isOk r.1 then r.2.1 else 0) = (content.length : Int) := h.1
    split at hsum
    · rw [hr (by simpa [isOk] using ‹isOk r.1 = true›)] at hsum
      omega
    · omega

/-- After an upload that has succeeded, the download returns the size and gives the bytes. -/
def GivesBack (data : List UInt8) (n : Nat) : Prop :=
  ∀ (s : Storage) (error : FsError), AtRest s.unread →
    wp (serial checksum MayRefuse) False (fun up s' => up.1 = (0 : Int) →
        wp (serial checksum MayRefuse) False
          (fun down _ => down.1.1 = (n : Int) ∧ down.1.2.2 = data.take n)
          ((Op.downloadFile name).at up.2) s')
      ((Op.uploadFile name data n).at error) s

variable {checksum name}

/-- A file that comes back, if the module takes its name. -/
theorem GivesBack.repeats (hback : GivesBack checksum name data n) (h0 : 0 < n) (hn : n < 65536)
    (hdata : n ≤ data.length) (hq : Quotable name) :
    Modem.Fits name ∧ n < 10 ∧ Repeats (data.take n) := by
  have hlen : (data.take n).length = n := List.length_take_of_le hdata
  -- the run in which the module accepts the upload
  let s : Storage := ⟨[], fun _ => none, fun _ => none, none⟩
  obtain ⟨up, s', hrun, hup⟩ := exists_unrefused MayRefuse
    (uploadFile_spec checksum (fun _ => False) name noError (s := s) (.inl rfl) h0 hn hdata)
  obtain ⟨hup0, hs'⟩ : up.1 = (0 : Int) ∧ Uploaded s' name (data.take n) := by
    rcases hup with ⟨-, h | h⟩ | ⟨-, h⟩
    · exact h.elim
    · exact absurd hq h
    · exact h
  have hgives := hrun.ends (hback s noError (.inl rfl)) hup0
  have hdown := downloadFile_spec checksum MayRefuse name up.2 (fun _ => id) hq (hlen.symm ▸ h0)
    (hlen.symm ▸ hn) hs'
  obtain ⟨down, -, -, hgive, hiff⟩ := exists_run serial_answers (wp_and hgives hdown)
  rw [hlen] at hiff
  exact hiff.mp hgive

theorem givesBack_of_repeats (h0 : 0 < n) (hn : n < 65536) (hdata : n ≤ data.length)
    (h : Quotable name → Modem.Fits name ∧ n < 10 ∧ Repeats (data.take n)) :
    GivesBack checksum name data n := by
  have hlen : (data.take n).length = n := List.length_take_of_le hdata
  intro s error hrest
  refine wp_mono (uploadFile_spec checksum _ name error hrest h0 hn hdata) fun up s' hup => ?_
  rcases hup with ⟨hne, -⟩ | ⟨hq, -, hs'⟩
  · exact fun hup => absurd hup hne
  · intro _
    have hdown := downloadFile_spec checksum MayRefuse name up.2 (fun _ => id) hq (hlen.symm ▸ h0)
      (hlen.symm ▸ hn) hs'
    rw [eq_false (not_not_intro (h hq).1)] at hdown
    refine wp_mono hdown fun down _ hiff => ?_
    rw [hlen] at hiff
    exact hiff.mpr (h hq)

variable (checksum name)

/-- **Upload and download.** A file comes back if and only if the module does not take its name, or
the name fits in the array of `fs_file_size`, the size has one digit, and the bytes repeat the end
of a line. -/
theorem upload_download_iff (data : List UInt8) (n : Nat) (h0 : 0 < n) (hn : n < 65536)
    (hdata : n ≤ data.length) :
    GivesBack checksum name data n ↔
      (Quotable name → Modem.Fits name ∧ n < 10 ∧ Repeats (data.take n)) :=
  ⟨fun h => h.repeats h0 hn hdata, givesBack_of_repeats h0 hn hdata⟩

/-- Two bytes that come back. -/
theorem upload_download_iff_lineEnd : GivesBack (fun _ => 0) "a.txt" [13, 10] 2 :=
  (upload_download_iff (fun _ => 0) "a.txt" [13, 10] 2 (by decide) (by decide) (by decide)).mpr
    fun _ => ⟨by decide, by decide, by decide⟩

/-- Twelve bytes that do not come back. -/
theorem upload_download_iff_text : ¬ ∀ (checksum : List UInt8 → Nat) (name : String)
    (data : List UInt8) (n : Nat), 0 < n → n < 65536 → n ≤ data.length →
      GivesBack checksum name data n := fun h => by
  have hback := h (fun _ => 0) "a.txt" (Scanf.bytes "hello, world") 12 (by decide) (by decide)
    (by decide)
  exact absurd (hback.repeats (by decide) (by decide) (by decide) (by decide)).2.1 (by decide)

end Bg96.File
