import BG96Driver.Network.Time

/-!
# The line of a location

The module gives a location in one line of seventeen fields, six of them packed in twos and threes
without a separator. `GNSSLoc` reads the line with one pattern.

* `Location`: the fields, with their ranges. `Location.text`: the line.
* `Handed`: the `struct tm` of a date. `Decoded`: an object that has the other fields.
* `location_decoded`: every field of every line is read, leading zeros or not. The fraction of the
  second is read too, and dropped.
-/

namespace Bg96.Modem

open Calendar Sscanf

/-- The number that a `float` is read from. -/
def Reading.value (x : Reading) : ℚ := x.1 / 10 ^ x.2

/-- The fields of a location. -/
structure Location where
  time : Instant
  fraction : List Char
  latitude : Fixed
  longitude : Fixed
  hdop : Fixed
  altitude : Fixed
  fix : Numeral
  degrees : Numeral
  minutes : Numeral
  spkm : Fixed
  spkn : Fixed
  nsat : Numeral
  hyear : 2000 ≤ time.year ∧ time.year ≤ 2099
  hfraction : Digits fraction
  hdegrees : degrees.value < 360
  hminutes : minutes.value < 60
  /-- The fraction, `fix` and `nsat` are scanned into variables of type `int`. -/
  hfractionInt : valueOf fraction < 2 ^ 31
  hfix : fix.value < 2 ^ 31
  hnsat : nsat.value < 2 ^ 31

/-- `hhmmss.f,lat,lon,hdop,alt,fix,ddd.mm,spkm,spkn,ddMMyy,nsat` -/
def Location.text (p : Location) : List Char :=
  [padded 2 p.time.hour, padded 2 p.time.minute, padded 2 p.time.second, ['.'], p.fraction, [','],
    p.latitude.text, [','], p.longitude.text, [','], p.hdop.text, [','], p.altitude.text, [','],
    p.fix.text, [','], p.degrees.text, ['.'], p.minutes.text, [','], p.spkm.text, [','],
    p.spkn.text, [','], padded 2 p.time.day, padded 2 p.time.month, padded 2 (p.time.year % 100),
    [','], p.nsat.text].flatten

/-- The `struct tm` has the date and the time of day. -/
structure Handed (i : Instant) (time : Tm) : Prop where
  hour : time.hour = i.hour
  min : time.min = i.minute
  sec : time.sec = i.second
  mday : time.mday = i.day
  mon : time.mon = i.month - 1
  year : time.year = i.year - 1900

/-- The object has the fields that are not about time. -/
structure Decoded (p : Location) (loc : GnssLoc) : Prop where
  latitude : loc.latitude.value = p.latitude.value
  longitude : loc.longitude.value = p.longitude.value
  hdop : loc.hdop.value = p.hdop.value
  altitude : loc.altitude.value = p.altitude.value
  fix : loc.fix = p.fix.value
  degrees : loc.cog.degrees = p.degrees.value
  minutes : loc.cog.minutes = p.minutes.value
  spkm : loc.spkm.value = p.spkm.value
  spkn : loc.spkn.value = p.spkn.value
  nsat : loc.nsat = p.nsat.value

theorem Fixed.reads (d : Fixed) : ReadsDecimal d.text d.stored := d.sscanf_text

theorem sscanf_location (p : Location) :
    sscanf (directives "%2d%2d%2d.%d,%f,%f,%f,%f,%d,%d.%d,%f,%f,%2d%2d%2d,%d") p.text =
      [.int p.time.hour, .int p.time.minute, .int p.time.second, .int (valueOf p.fraction),
        p.latitude.stored, p.longitude.stored, p.hdop.stored, p.altitude.stored,
        .int p.fix.value, .int p.degrees.value, .int p.minutes.value, p.spkm.stored,
        p.spkn.stored, .int p.time.day, .int p.time.month, .int (p.time.year % 100 : Nat),
        .int p.nsat.value] := by
  have hdigits : ∀ ns ∈ [p.fraction, p.fix.text, p.degrees.text, p.minutes.text, p.nsat.text],
      Digits ns := by
    simp [p.hfraction, Numeral.digits]
  have hdecimal : ∀ d ∈ [p.latitude, p.longitude, p.hdop, p.altitude, p.spkm, p.spkn].map
      fun d => (d.text, d.stored), ReadsDecimal d.1 d.2 := by
    simp [Fixed.reads]
  have hfields := sscanf_fields p.time.lt_hundred hdigits hdecimal
  have hdegrees := p.hdegrees
  have hminutes := p.hminutes
  simp only [Numeral.valueOf_text, saturate_of_lt p.hfractionInt, saturate_of_lt p.hfix,
    saturate_of_lt p.hnsat] at hfields
  rw [saturate_of_lt (by omega), saturate_of_lt (by omega)] at hfields
  exact hfields

/-- **A location line.** Every field is read: those of the time as `_rtc_maketime` takes them, where
months are counted from 0 and years from 1900, and the decimal numbers exactly. The fraction of the
second goes into a variable that is not used. -/
theorem location_decoded (v : GnssLocals) (p : Location) :
    ∃ time, Handed p.time time ∧ ∀ rtcMaketime,
      Decoded p (GnssLoc.ofString rtcMaketime v p.text) ∧
      (GnssLoc.ofString rtcMaketime v p.text).gnssutctime =
        (rtcMaketime time).getD v.self.gnssutctime := by
  refine ⟨p.time.tm v.time, ⟨rfl, rfl, rfl, rfl, rfl, rfl⟩, fun rtcMaketime => ⟨?_, ?_⟩⟩
  · rw [GnssLoc.ofString, sscanf_location]
    constructor <;> rfl
  · have hcentury := p.hyear
    have hyear : ((p.time.year % 100 : Nat) : Int) + 100 = p.time.year - 1900 := by omega
    rw [GnssLoc.ofString, sscanf_location, Instant.tm, ← hyear]
    rfl

/-- The line of the comment at `updateGNSSLoc`. -/
def commentLine : Location where
  time := december
  fraction := somewhere.fraction
  latitude := ⟨false, ⟨5470573, 7, by decide, by decide⟩, 5, by decide⟩
  longitude := ⟨true, ⟨156611, 6, by decide, by decide⟩, 5, by decide⟩
  hdop := ⟨false, ⟨13, 2, by decide, by decide⟩, 1, by decide⟩
  altitude := ⟨false, ⟨1630, 4, by decide, by decide⟩, 1, by decide⟩
  fix := ⟨2, 1, by decide, by decide⟩
  degrees := ⟨0, 1, by decide, by decide⟩
  minutes := ⟨0, 2, by decide, by decide⟩
  spkm := ⟨false, ⟨0, 2, by decide, by decide⟩, 1, by decide⟩
  spkn := ⟨false, ⟨0, 2, by decide, by decide⟩, 1, by decide⟩
  nsat := ⟨8, 2, by decide, by decide⟩
  hyear := by decide
  hfraction := somewhere.hfraction
  hdegrees := by decide
  hminutes := by decide
  hfractionInt := by decide
  hfix := by decide
  hnsat := by decide

example : String.ofList commentLine.text =
    "200315.0,54.70573,-1.56611,1.3,163.0,2,0.00,0.0,0.0,131218,08" := by decide

/-- The line half a second later. -/
def laterLine : Location :=
  { commentLine with
    fraction := ['5']
    hfraction := by decide
    hfractionInt := by decide }

/-- The objects of the two lines are the same. -/
theorem fraction_lost : commentLine.fraction ≠ laterLine.fraction ∧ ∀ rtcMaketime v,
    GnssLoc.ofString rtcMaketime v commentLine.text =
      GnssLoc.ofString rtcMaketime v laterLine.text := by
  refine ⟨by decide, fun rtcMaketime v => ?_⟩
  unfold GnssLoc.ofString
  rw [sscanf_location, sscanf_location]
  rfl

end Bg96.Modem
