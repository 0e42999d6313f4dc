import BG96Driver.File.RoundTrip

/-!
# Reading what was written

`fs_read` waits for `CONNECT` and takes its bytes from there, so they begin with the rest of that
line: a blank, the number of bytes that come, and the end of the line. What it then lacks of the
file it leaves before the `OK`; at the end of the file it takes what is before the `OK` instead.

* `writeFile_spec`, `seekFile_spec`, `readFile_spec`: the three operations.
* `ReadsBack`: a write, a seek to the start and a read give the bytes that were written.
* `ReadsOnly`: a read that succeeds gives as many bytes of the file as were asked for.
* `file_access_iff`: when they hold.
-/

namespace Bg96.File

open Program Modem

variable {mayRefuse : Format → Prop} {s : Storage} {fh : Int} {h : Handle} {length m pos : Nat}
  {data content : List UInt8}

section Operations

variable (checksum : List UInt8 → Nat) (error : FsError)

/-- What an operation that returns whether its result code is `NSAPI_ERROR_OK` says: it was refused,
or it has been done. -/
theorem refused_or_done {refused : Prop} {done : Storage → Prop} {rc : Int} {s' : Storage}
    (h : rc ≠ nsapiErrorOk ∧ refused ∨ rc = nsapiErrorOk ∧ done s') :
    if isOk rc then isOk rc = false ∧ refused ∨ isOk rc = true ∧ done s'
    else ∀ (_ : FsError) (s'' : Storage), isOk rc = false ∧ refused ∨ isOk rc = true ∧ done s'' := by
  rcases h with ⟨hne, hrefused⟩ | ⟨rfl, hdone⟩
  · have hno : isOk rc = false := by simp [isOk, hne]
    rw [if_neg (by simp [hno])]
    exact fun _ _ => .inl ⟨hno, hrefused⟩
  · exact .inr ⟨rfl, hdone⟩

theorem writeFile_spec (hrest : AtRest s.unread) (hopen : s.handles fh = some h)
    (h0 : 0 < data.length) (hn : data.length < 2 ^ 32) :
    wp (serial checksum mayRefuse) False (fun w s' =>
        w.1 = false ∧ mayRefuse ⟨"AT+QFWRITE=%ld, %u", [.int fh, .int data.length]⟩ ∨
        w.1 = true ∧ s' = s.written fh h data)
      ((Op.write fh data.length data).at error) s := by
  refine wp_reporting_ret isOk (fun _ => rfl) ?_
  show wp _ _ _ (Modem.fsWrite fh data.length data >>= _) _
  rw [wp_bind]
  refine wp_mono (fsWrite_spec hrest hopen h0 hn) fun rc s' hrc => ?_
  exact refused_or_done hrc

theorem seekFile_spec (hrest : AtRest s.unread) (hopen : s.handles fh = some h) :
    wp (serial checksum mayRefuse) False (fun k s' =>
        k.1 = false ∧ mayRefuse ⟨"AT+QFSEEK=%ld,%u,%d", [.int fh, .int 0, .int 0]⟩ ∨
        k.1 = true ∧ s' = s.sought fh h 0 0)
      ((Op.seek fh 0).at error) s := by
  refine wp_reporting_ret isOk (fun _ => rfl) ?_
  show wp _ _ _ (Modem.fsSeek fh 0 0 >>= _) _
  rw [wp_bind]
  refine wp_mono (fsSeek_spec hrest hopen) fun rc s' hrc => ?_
  exact refused_or_done hrc

/-- The bytes that `fs_read` stores, when `bs` are those of the file. -/
def stored (bs : List UInt8) (length : Nat) : List UInt8 :=
  (readStream bs).take length ++ List.replicate (length - (readStream bs).length) 255

variable (length) in
theorem readFile_spec (hrest : AtRest s.unread) (hopen : s.handles fh = some h) :
    wp (serial checksum mayRefuse) False (fun rd _ =>
        rd.1.1 = false ∧ mayRefuse ⟨"AT+QFREAD=%ld, %u", [.int fh, .int length]⟩ ∨
        (rd.1.1 = true ↔
          length ≤ (header (s.bytesAt h length).length).length + (s.bytesAt h length).length + 2) ∧
          rd.1.2 = stored (s.bytesAt h length) length)
      ((Op.read fh length).at error) s := by
  refine wp_reporting_ret (fun r => (isOk r.1, r.2)) (fun _ => rfl) ?_
  show wp _ _ _ (Modem.fsRead fh length >>= _) _
  rw [wp_bind]
  refine wp_mono (fsRead_spec hrest hopen) fun r s' hr => ?_
  show if isOk r.1 then _ else _
  have hend : isOk r.1 = false ∧ mayRefuse ⟨"AT+QFREAD=%ld, %u", [.int fh, .int length]⟩ ∨
      (isOk r.1 = true ↔
        length ≤ (header (s.bytesAt h length).length).length + (s.bytesAt h length).length + 2) ∧
        r.2 = stored (s.bytesAt h length) length := by
    simpa [isOk, stored] using hr
  split
  · exact hend
  · exact fun _ _ => hend

end Operations

/-! ## Writing and reading -/

variable (checksum : List UInt8 → Nat)

/-- A write to an empty file, a seek to its start and a read, if they all return `true`, give the
first bytes that were written. -/
def ReadsBack (data : List UInt8) (m : Nat) : Prop :=
  ∀ (s : Storage) (fh : Int) (name : String) (error : FsError), AtRest s.unread →
    s.handles fh = some ⟨name, 0⟩ → s.files name = some [] →
    wp (serial checksum MayRefuse) False (fun w s₁ => w.1 = true →
        wp (serial checksum MayRefuse) False (fun k s₂ => k.1 = true →
            wp (serial checksum MayRefuse) False (fun rd _ => rd.1.1 = true → rd.1.2 = data.take m)
              ((Op.read fh m).at k.2) s₂)
          ((Op.seek fh 0).at w.2) s₁)
      ((Op.write fh data.length data).at error) s

/-- A read that returns `true` has stored as many bytes of the file as were asked for. -/
def ReadsOnly (content : List UInt8) (pos length : Nat) : Prop :=
  ∀ (s : Storage) (fh : Int) (name : String) (error : FsError), AtRest s.unread →
    s.handles fh = some ⟨name, pos⟩ → s.files name = some content →
    wp (serial checksum MayRefuse) False (fun rd _ => rd.1.1 = true →
        ((content.drop pos).take length).length = length ∧
          rd.1.2 = (content.drop pos).take length)
      ((Op.read fh length).at error) s

/-- The bytes repeat the rest of the line `CONNECT`. -/
def RepeatsHeader (data : List UInt8) (m : Nat) : Prop :=
  (header m ++ data).take m = data.take m

instance (data : List UInt8) (m : Nat) : Decidable (RepeatsHeader data m) :=
  inferInstanceAs (Decidable (_ = _))

variable {checksum}

/-- What is stored of enough bytes. -/
theorem stored_take (bs : List UInt8) :
    stored bs bs.length = (header bs.length ++ bs).take bs.length := by
  have hle : bs.length ≤ (header bs.length ++ bs).length := by simp
  rw [stored, Nat.sub_eq_zero_of_le, List.replicate_zero, List.append_nil]
  · rw [readStream, List.append_assoc, List.append_assoc, List.take_append_of_le_length hle]
  · simp only [readStream, List.length_append]
    omega

theorem stored_firstBytes (hm : m ≤ data.length) :
    stored (data.take m) m = (header m ++ data).take m := by
  have hlen : (data.take m).length = m := List.length_take_of_le hm
  have hstored := stored_take (data.take m)
  rw [hlen] at hstored
  rw [hstored, List.take_append, List.take_append, List.take_take, Nat.min_eq_left (Nat.sub_le ..)]

theorem written_handle (s : Storage) (fh : Int) (name : String) (data : List UInt8) :
    (s.written fh ⟨name, 0⟩ data).handles fh = some ⟨name, 0 + data.length⟩ :=
  Function.update_self ..

/-- The module after a write to an empty file and a seek to its start. -/
def rewound (s : Storage) (fh : Int) (name : String) (data : List UInt8) : Storage :=
  (s.written fh ⟨name, 0⟩ data).sought fh ⟨name, 0 + data.length⟩ 0 0

theorem rewound_handle (s : Storage) (fh : Int) (name : String) (data : List UInt8) :
    (rewound s fh name data).handles fh = some ⟨name, 0⟩ := Function.update_self ..

/-- The handle gives what was written. -/
theorem rewound_bytesAt {name : String} (fh : Int) (data : List UInt8)
    (hfile : s.files name = some []) (m : Nat) :
    (rewound s fh name data).bytesAt ⟨name, 0⟩ m = data.take m := by
  have hfiles : (rewound s fh name data).files name = some (overwrite [] 0 data) := by
    show Function.update s.files name _ name = _
    rw [Function.update_self, Storage.bytesOf, hfile]
    rfl
  rw [Storage.bytesAt, Storage.bytesOf, hfiles]
  simp [overwrite]

theorem ReadsBack.repeats (hback : ReadsBack checksum data m) (h1 : 1 ≤ m) (hm : m ≤ data.length)
    (hn : data.length < 2 ^ 32) : RepeatsHeader data m := by
  let s : Storage := ⟨[], fun _ => some [], fun _ => some ⟨"", 0⟩, none⟩
  have hopen : s.handles 0 = some ⟨"", 0⟩ := rfl
  have h0 : 0 < data.length := by omega
  obtain ⟨w, s₁, hw, hw'⟩ := exists_unrefused MayRefuse
    (writeFile_spec checksum noError (.inl rfl) hopen h0 hn)
  obtain ⟨hwtrue, rfl⟩ := hw'.resolve_left And.right
  have hseek := hw.ends (hback s 0 "" noError (.inl rfl) hopen rfl) hwtrue
  obtain ⟨k, s₂, hk, hk'⟩ := exists_unrefused MayRefuse
    (seekFile_spec checksum w.2 (.inr rfl) (written_handle s 0 "" data))
  obtain ⟨hktrue, rfl⟩ := hk'.resolve_left And.right
  have hread := hk.ends hseek hktrue
  obtain ⟨rd, s₃, hrd, hrd'⟩ := exists_unrefused MayRefuse
    (readFile_spec m checksum k.2 (.inr rfl) (rewound_handle s 0 "" data))
  obtain ⟨hiff, hbytes⟩ := hrd'.resolve_left And.right
  rw [rewound_bytesAt 0 data rfl] at hiff hbytes
  have hlen : (data.take m).length = m := List.length_take_of_le hm
  have hgot := hrd.ends hread (hiff.mpr (by rw [hlen]; omega))
  exact (stored_firstBytes hm).symm.trans (hbytes.symm.trans hgot)

theorem readsBack_of_repeats (h1 : 1 ≤ m) (hm : m ≤ data.length) (hn : data.length < 2 ^ 32)
    (h : RepeatsHeader data m) : ReadsBack checksum data m := by
  intro s fh name error hrest hopen hfile
  refine wp_mono (writeFile_spec checksum error hrest hopen (by omega) hn) fun w s₁ hw hwtrue => ?_
  obtain ⟨-, rfl⟩ := hw.resolve_left fun hno => by simp [hno.1] at hwtrue
  refine wp_mono (seekFile_spec checksum w.2 (.inr rfl) (written_handle s fh name data))
    fun k s₂ hk hktrue => ?_
  obtain ⟨-, rfl⟩ := hk.resolve_left fun hno => by simp [hno.1] at hktrue
  refine wp_mono (readFile_spec m checksum k.2 (.inr rfl) (rewound_handle s fh name data))
    fun rd s₃ hrd hrdtrue => ?_
  obtain ⟨-, hbytes⟩ := hrd.resolve_left fun hno => by simp [hno.1] at hrdtrue
  have hbs := congrArg (fun bs => stored bs m) (rewound_bytesAt fh data hfile m)
  exact hbytes.trans (hbs.trans ((stored_firstBytes hm).trans h))

/-- What a read of `length` bytes gives is too short for the `OK` to come, or it is all that was
asked for, and repeats the line. -/
def Honest (bs : List UInt8) (length : Nat) : Prop :=
  (header bs.length).length + bs.length + 2 < length ∨
    bs.length = length ∧ RepeatsHeader bs length

theorem ReadsOnly.honest (h : ReadsOnly checksum content pos length) :
    Honest ((content.drop pos).take length) length := by
  let s : Storage := ⟨[], fun _ => some content, fun _ => some ⟨"", pos⟩, none⟩
  have hopen : s.handles 0 = some ⟨"", pos⟩ := rfl
  obtain ⟨rd, s', hrd, hrd'⟩ := exists_unrefused MayRefuse
    (readFile_spec length checksum noError (.inl rfl) hopen)
  obtain ⟨hiff, hbytes⟩ := hrd'.resolve_left And.right
  have hbs : s.bytesAt ⟨"", pos⟩ length = (content.drop pos).take length := rfl
  rw [hbs] at hiff hbytes
  by_cases htrue : rd.1.1 = true
  · obtain ⟨hlen, hgot⟩ := hrd.ends (h s 0 "" noError (.inl rfl) hopen rfl) htrue
    refine .inr ⟨hlen, ?_⟩
    have hstored := stored_take ((content.drop pos).take length)
    rw [hlen, ← hbytes, hgot] at hstored
    rw [RepeatsHeader, ← hstored, List.take_of_length_le (Nat.le_of_eq hlen)]
  · exact .inl (by rw [hiff] at htrue; omega)

theorem readsOnly_of_honest (h : Honest ((content.drop pos).take length) length) :
    ReadsOnly checksum content pos length := by
  intro s fh name error hrest hopen hfile
  refine wp_mono (readFile_spec length checksum error hrest hopen) fun rd s' hrd htrue => ?_
  obtain ⟨hiff, hbytes⟩ := hrd.resolve_left fun hno => by simp [hno.1] at htrue
  have hbs : s.bytesAt ⟨name, pos⟩ length = (content.drop pos).take length := by
    rw [Storage.bytesAt, Storage.bytesOf, hfile]
    rfl
  rw [hbs] at hiff hbytes
  rcases h with hshort | ⟨hlen, hrepeats⟩
  · exact absurd (hiff.mp htrue) (by omega)
  · have hstored := stored_take ((content.drop pos).take length)
    rw [hlen, ← hbytes] at hstored
    refine ⟨hlen, hstored.trans (hrepeats.trans ?_)⟩
    rw [List.take_of_length_le (Nat.le_of_eq hlen)]

/-- **Reading what was written.** A write to an empty file, a seek and a read give the bytes back if
and only if they repeat the rest of the line `CONNECT`; and a read that succeeds gives what was
asked for if and only if it is too short to succeed, or gives all of it, which repeats this line. -/
theorem file_access_iff (checksum : List UInt8 → Nat) (data : List UInt8) (m : Nat) (h1 : 1 ≤ m)
    (hm : m ≤ data.length) (hn : data.length < 2 ^ 32) (content : List UInt8) (pos length : Nat) :
    (ReadsBack checksum data m ↔ RepeatsHeader data m) ∧
      (ReadsOnly checksum content pos length ↔ Honest ((content.drop pos).take length) length) :=
  ⟨⟨fun h => h.repeats h1 hm hn, readsBack_of_repeats h1 hm hn⟩, ⟨fun h => h.honest,
    readsOnly_of_honest⟩⟩

/-- Four bytes that come back, and a read that fails at the end of the file. -/
theorem file_access_iff_header : ReadsBack (fun _ => 0) (Scanf.bytes " 4\r\n") 4 ∧
    ReadsOnly (fun _ => 0) (Scanf.bytes "ab") 2 9 := by
  obtain ⟨hback, honly⟩ := file_access_iff (fun _ => 0) (Scanf.bytes " 4\r\n") 4 (by decide)
    (by decide) (by decide) (Scanf.bytes "ab") 2 9
  exact ⟨hback.mpr (by decide), honly.mpr (.inl (by decide))⟩

/-- Five bytes that do not come back, and a read of an empty file that succeeds. -/
theorem file_access_iff_text :
    (¬ ∀ (checksum : List UInt8 → Nat) (data : List UInt8) (m : Nat), 1 ≤ m → m ≤ data.length →
      data.length < 2 ^ 32 → ReadsBack checksum data m) ∧
    ¬ ∀ (checksum : List UInt8 → Nat) (content : List UInt8) (pos length : Nat),
      ReadsOnly checksum content pos length := by
  constructor
  · intro h
    have hback := h (fun _ => 0) (Scanf.bytes "hello") 5 (by decide) (by decide) (by decide)
    exact absurd (hback.repeats (by decide) (by decide) (by decide)) (by decide)
  · intro h
    rcases (h (fun _ => 0) [] 0 5).honest with hshort | ⟨hlen, -⟩
    · exact absurd hshort (by decide)
    · exact absurd hlen (by decide)

end Bg96.File
