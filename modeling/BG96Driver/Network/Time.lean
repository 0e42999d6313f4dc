import BG96Driver.Lib.Calendar
import BG96Driver.Lib.Sscanf
import BG96Driver.Modem.Exchange
import BG96Driver.Modem.Network

/-!
# The two decoders of time

`getNetworkGMTTime` reads the time of the network, and `GNSSLoc` the time of a position. Both fill a
`struct tm`, whose months are counted from 0. Only `GNSSLoc` subtracts 1 from the month that it
reads.

* `getNetworkGmtTime`, `GnssLoc.ofString`: the decoders.
* `qlts`, `qgpsloc`: an instant as the module renders it.
* `network_time`, `gnss_time`: the first decoder is a month late, the second is right.
* `times_never`: they never agree on the time of the instant.
-/

namespace Bg96.Modem

open Program Calendar Sscanf

/-! ## The decoders -/

/-- The number that the conversion `k` has stored, or what was there before. -/
def storedInt (fields : List Stored) (k : Nat) (old : Int) : Int :=
  match fields[k]? with
  | some (.int n) => n
  | _ => old

/-- A `float`, as the decimal that it is read from. -/
abbrev Reading := Int × Nat

def storedFloat (fields : List Stored) (k : Nat) (old : Reading) : Reading :=
  match fields[k]? with
  | some (.decimal n scale) => (n, scale)
  | _ => old

/-- The string that a conversion has stored; the empty string is there before. -/
def storedText (fields : List Stored) (k : Nat) : List Char :=
  match fields[k]? with
  | some (.text s) => s
  | _ => []

/-- The end of `BG96::getLatesSyncTime`: `gmttime`, which is empty before it, and `dst`. -/
def splitSyncTime (time : List Char) (dst : Int) : List Char × Int :=
  let fields := sscanf (directives "%22s,%d") time
  (storedText fields 0, storedInt fields 1 dst)

/-- `BG96Interface::getNetworkGMTTime`, with `*gmttime` after it. `t` and `dst` are the variables of
these names, which are not initialised. -/
def getNetworkGmtTime (mktime : Tm → Int) (t : Tm) (dst : Int) : At (Int × Option Int) := do
  match ← getLatesSyncTime with
  | none => return (-1, none)
  | some time =>
    let (timestr, _) := splitSyncTime time.toList dst
    let fields := sscanf (directives "%d/%d/%d,%d:%d:%d%c%d") timestr
    let t : Tm :=
      { t with
        year := storedInt fields 0 t.year - 1900
        mon := storedInt fields 1 t.mon
        mday := storedInt fields 2 t.mday
        hour := storedInt fields 3 t.hour
        min := storedInt fields 4 t.min
        sec := storedInt fields 5 t.sec }
    return (nsapiErrorOk, some (mktime t))

/-- `COG`. -/
structure Cog where
  degrees : Int
  minutes : Int

/-- `GNSSLoc`. -/
structure GnssLoc where
  gnssutctime : Int
  latitude : Reading
  longitude : Reading
  hdop : Reading
  altitude : Reading
  fix : Int
  cog : Cog
  spkm : Reading
  spkn : Reading
  nsat : Int

/-- The variables of `GNSSLoc::GNSSLoc(const char*)`, which are not initialised: the object, `time`,
`cogdeg`, `cogmin` and `shortyear`. -/
structure GnssLocals where
  self : GnssLoc
  time : Tm
  cogdeg : Int
  cogmin : Int
  shortyear : Int

/-- `GNSSLoc::GNSSLoc(const char*)`. `rtcMaketime` is `none` when it fails. -/
def GnssLoc.ofString (rtcMaketime : Tm → Option Int) (v : GnssLocals) (locationstring : List Char) :
    GnssLoc :=
  let fields := sscanf
    (directives "%2d%2d%2d.%d,%f,%f,%f,%f,%d,%d.%d,%f,%f,%2d%2d%2d,%d") locationstring
  let time : Tm :=
    { v.time with
      hour := storedInt fields 0 v.time.hour
      min := storedInt fields 1 v.time.min
      sec := storedInt fields 2 v.time.sec
      mday := storedInt fields 13 v.time.mday
      mon := storedInt fields 14 v.time.mon - 1
      year := storedInt fields 15 v.shortyear + 100 }
  { gnssutctime := (rtcMaketime time).getD v.self.gnssutctime
    latitude := storedFloat fields 4 v.self.latitude
    longitude := storedFloat fields 5 v.self.longitude
    hdop := storedFloat fields 6 v.self.hdop
    altitude := storedFloat fields 7 v.self.altitude
    fix := storedInt fields 8 v.self.fix
    cog := ⟨storedInt fields 9 v.cogdeg, storedInt fields 10 v.cogmin⟩
    spkm := storedFloat fields 11 v.self.spkm
    spkn := storedFloat fields 12 v.self.spkn
    nsat := storedInt fields 16 v.self.nsat }

/-! ## What the module renders -/

/-- The offset of the local time from UTC, in quarters of an hour, and the daylight saving. -/
structure Zone where
  sign : Char
  quarters : Nat
  dst : Nat
  hsign : sign = '+' ∨ sign = '-'
  hquarters : quarters < 100
  hdst : dst < 10

/-- `yyyy/MM/dd,hh:mm:ss+zz` -/
def qltsTime (i : Instant) (z : Zone) : List Char :=
  [padded 4 i.year, ['/'], padded 2 i.month, ['/'], padded 2 i.day, [','], padded 2 i.hour, [':'],
    padded 2 i.minute, [':'], padded 2 i.second, [z.sign], padded 2 z.quarters].flatten

/-- `yyyy/MM/dd,hh:mm:ss+zz,d` -/
def qlts (i : Instant) (z : Zone) : List Char := qltsTime i z ++ ',' :: padded 1 z.dst

/-- The fields of a position that are not about time, and the fraction of the second. -/
structure Position where
  fraction : List Char
  latitude : Decimal
  longitude : Decimal
  hdop : Decimal
  altitude : Decimal
  fix : List Char
  cogdeg : List Char
  cogmin : List Char
  spkm : Decimal
  spkn : Decimal
  nsat : List Char
  hfraction : Digits fraction
  hfix : Digits fix
  hcogdeg : Digits cogdeg
  hcogmin : Digits cogmin
  hnsat : Digits nsat

/-- `hhmmss.s,...,ddMMyy,nsat` -/
def qgpsloc (i : Instant) (p : Position) : List Char :=
  [padded 2 i.hour, padded 2 i.minute, padded 2 i.second, ['.'], p.fraction, [','],
    p.latitude.text, [','], p.longitude.text, [','], p.hdop.text, [','], p.altitude.text, [','],
    p.fix, [','], p.cogdeg, ['.'], p.cogmin, [','], p.spkm.text, [','], p.spkn.text, [','],
    padded 2 i.day, padded 2 i.month, padded 2 (i.year % 100), [','], p.nsat].flatten

/-! ## What `sscanf` makes of it -/

variable {i : Instant} {z : Zone}

theorem two_digits {n : Nat} (hn : n < 100) (ds : List Directive) {r : List Char} (hr : Ends r) :
    sscanf (.int none :: ds) (padded 2 n ++ r) = .int n :: sscanf ds r := by
  rw [sscanf_int ds (digits_padded (by decide) n) hr, valueOf_padded hn, saturate_of_lt (by omega)]

theorem sscanf_qltsTime (i : Instant) (z : Zone) (hi : i.year ≤ 2099) :
    sscanf (directives "%d/%d/%d,%d:%d:%d%c%d") (qltsTime i z) =
      [.int i.year, .int i.month, .int i.day, .int i.hour, .int i.minute, .int i.second,
        .text [z.sign], .int z.quarters] := by
  have hmonth := i.hmonth
  have hday := i.day_le
  have hhour := i.hhour
  have hminute := i.hminute
  have hsecond := i.hsecond
  have hsign : z.sign.isDigit = false := by rcases z.hsign with h | h <;> rw [h] <;> decide
  have hd : directives "%d/%d/%d,%d:%d:%d%c%d" =
      [.int none, .lit '/', .int none, .lit '/', .int none, .lit ',', .int none, .lit ':', .int none,
        .lit ':', .int none, .char, .int none] := by decide
  rw [hd, qltsTime]
  simp only [List.flatten_cons, List.flatten_nil, List.append_nil, List.singleton_append]
  have hslash : Char.isDigit '/' = false := by decide
  have hcomma : Char.isDigit ',' = false := by decide
  have hcolon : Char.isDigit ':' = false := by decide
  rw [sscanf_int _ (digits_padded (by decide) i.year) (ends_cons hslash), sscanf_lit,
    valueOf_padded (by omega), saturate_of_lt (by omega),
    two_digits (by omega) _ (ends_cons hslash), sscanf_lit,
    two_digits (by omega) _ (ends_cons hcomma), sscanf_lit, two_digits (by omega) _ (ends_cons hcolon),
    sscanf_lit, two_digits (by omega) _ (ends_cons hcolon), sscanf_lit,
    two_digits (by omega) _ (ends_cons hsign), sscanf_char]
  have hlast := two_digits z.hquarters [] ends_nil
  rw [List.append_nil] at hlast
  rw [hlast, sscanf_nil]

/-- The time of the network is the first word, and `dst` comes after it. -/
theorem splitSyncTime_qlts (i : Instant) (z : Zone) (dst : Int) :
    splitSyncTime (qlts i z) dst = (qltsTime i z, (z.dst : Int)) := by
  have hlen : (qltsTime i z).length = 22 := by simp [qltsTime]
  have hne : qltsTime i z ≠ [] := fun hnil => by rw [hnil] at hlen; cases hlen
  have hpadded {w : Nat} (hw : 0 < w) (n : Nat) : ∀ c ∈ padded w n, c.isWhitespace = false :=
    fun c hc => isWhitespace_of_isDigit ((digits_padded hw n).2 c hc)
  have hword : ∀ c ∈ qltsTime i z, c.isWhitespace = false := by
    have hsign : z.sign.isWhitespace = false := by rcases z.hsign with h | h <;> rw [h] <;> decide
    simp only [qltsTime, List.flatten_cons, List.flatten_nil, List.append_nil, List.forall_mem_append,
      List.forall_mem_singleton]
    exact ⟨hpadded (by decide) _, by decide, hpadded (by decide) _, by decide, hpadded (by decide) _,
      by decide, hpadded (by decide) _, by decide, hpadded (by decide) _, by decide,
      hpadded (by decide) _, hsign, hpadded (by decide) _⟩
  have hd : directives "%22s,%d" = [.word (some 22), .lit ',', .int none] := by decide
  have hdst := sscanf_int [] (digits_padded (w := 1) (by decide) z.dst) ends_nil
  have hlt := z.hdst
  rw [List.append_nil, valueOf_padded (by omega), saturate_of_lt (by omega), sscanf_nil] at hdst
  rw [splitSyncTime, hd, qlts, sscanf_word _ hne hword hlen, sscanf_lit, hdst]
  rfl

/-- A text that `%f` reads up to a comma. -/
def ReadsDecimal (text : List Char) (v : Stored) : Prop :=
  ∀ ds r, sscanf (.decimal :: ds) (text ++ ',' :: r) = v :: sscanf ds (',' :: r)

theorem Decimal.reads (d : Decimal) : ReadsDecimal d.text d.stored :=
  fun ds _ => sscanf_decimal d ds (ends_cons (by decide))

/-- A line of fields, each of which is read in full. -/
theorem sscanf_fields {hour minute second day month year : Nat}
    {fraction fix cogdeg cogmin nsat latitude longitude hdop altitude spkm spkn : List Char}
    {lat lon hd alt km kn : Stored}
    (htwo : ∀ n ∈ [hour, minute, second, day, month, year], n < 100)
    (hdigits : ∀ ns ∈ [fraction, fix, cogdeg, cogmin, nsat], Digits ns)
    (hdecimal : ∀ d ∈ [(latitude, lat), (longitude, lon), (hdop, hd), (altitude, alt), (spkm, km),
      (spkn, kn)], ReadsDecimal d.1 d.2) :
    sscanf (directives "%2d%2d%2d.%d,%f,%f,%f,%f,%d,%d.%d,%f,%f,%2d%2d%2d,%d")
        [padded 2 hour, padded 2 minute, padded 2 second, ['.'], fraction, [','], latitude, [','],
          longitude, [','], hdop, [','], altitude, [','], fix, [','], cogdeg, ['.'], cogmin, [','],
          spkm, [','], spkn, [','], padded 2 day, padded 2 month, padded 2 year, [','],
          nsat].flatten =
      [.int hour, .int minute, .int second, .int (saturate (valueOf fraction)), lat, lon, hd, alt,
        .int (saturate (valueOf fix)), .int (saturate (valueOf cogdeg)),
        .int (saturate (valueOf cogmin)), km, kn, .int day, .int month, .int year,
        .int (saturate (valueOf nsat))] := by
  have hd : directives "%2d%2d%2d.%d,%f,%f,%f,%f,%d,%d.%d,%f,%f,%2d%2d%2d,%d" =
      [.int (some 2), .int (some 2), .int (some 2), .lit '.', .int none, .lit ',', .decimal, .lit ',',
        .decimal, .lit ',', .decimal, .lit ',', .decimal, .lit ',', .int none, .lit ',', .int none,
        .lit '.', .int none, .lit ',', .decimal, .lit ',', .decimal, .lit ',', .int (some 2),
        .int (some 2), .int (some 2), .lit ',', .int none] := by decide
  simp only [List.forall_mem_cons, List.not_mem_nil, false_imp_iff, implies_true,
    and_true] at htwo hdigits hdecimal
  obtain ⟨hhour, hminute, hsecond, hday, hmonth, hyear⟩ := htwo
  obtain ⟨hfraction, hfix, hcogdeg, hcogmin, hnsat⟩ := hdigits
  obtain ⟨hlat, hlon, hhdop, halt, hkm, hkn⟩ := hdecimal
  have htwo {n : Nat} (hn : n < 100) (ds : List Directive) (r : List Char) :
      sscanf (.int (some 2) :: ds) (padded 2 n ++ r) = .int n :: sscanf ds r := by
    rw [sscanf_width ds (digits_padded (by decide) n) (length_padded 2 n), valueOf_padded hn,
      saturate_of_lt (by omega)]
  have hcomma {r : List Char} : Ends (',' :: r) := ends_cons (by decide)
  have hpoint {r : List Char} : Ends ('.' :: r) := ends_cons (by decide)
  have hlast := sscanf_int [] hnsat ends_nil
  rw [List.append_nil, sscanf_nil] at hlast
  rw [hd]
  simp only [List.flatten_cons, List.flatten_nil, List.append_nil, List.singleton_append]
  rw [htwo hhour, htwo hminute, htwo hsecond, sscanf_lit, sscanf_int _ hfraction hcomma,
    sscanf_lit, hlat, sscanf_lit, hlon, sscanf_lit, hhdop, sscanf_lit, halt, sscanf_lit,
    sscanf_int _ hfix hcomma, sscanf_lit, sscanf_int _ hcogdeg hpoint, sscanf_lit,
    sscanf_int _ hcogmin hcomma, sscanf_lit, hkm, sscanf_lit, hkn, sscanf_lit, htwo hday,
    htwo hmonth, htwo hyear, sscanf_lit, hlast]

theorem sscanf_qgpsloc (i : Instant) (p : Position) :
    sscanf (directives "%2d%2d%2d.%d,%f,%f,%f,%f,%d,%d.%d,%f,%f,%2d%2d%2d,%d") (qgpsloc i p) =
      [.int i.hour, .int i.minute, .int i.second, .int (saturate (valueOf p.fraction)),
        p.latitude.stored, p.longitude.stored, p.hdop.stored, p.altitude.stored,
        .int (saturate (valueOf p.fix)), .int (saturate (valueOf p.cogdeg)),
        .int (saturate (valueOf p.cogmin)), p.spkm.stored, p.spkn.stored, .int i.day,
        .int i.month, .int (i.year % 100 : Nat), .int (saturate (valueOf p.nsat))] := by
  refine sscanf_fields i.lt_hundred ?_ ?_
  · simp [p.hfraction, p.hfix, p.hcogdeg, p.hcogmin, p.hnsat]
  · simp [Decimal.reads]

/-! ## The times -/

/-- The function converts every `struct tm` in its range, up to the end of a year. -/
def Converts (last : Int) (convert : Tm → Option Int) : Prop :=
  ∀ t : Tm, t.InRange → t.year ≤ last → convert t = some t.seconds

/-- `mktime` takes the month after the twelfth for the first of the next year. -/
def Carries (mktime : Tm → Int) : Prop :=
  ∀ t : Tm, t.mon = 11 → 70 ≤ t.year → mktime t.nextMonth = mktime t.nextJanuary

/-- `AT+QLTS=1` is answered with an instant. -/
def Synced (i : Instant) (z : Zone) (l : List Exchange) : Prop :=
  ∃ ok, spoken l = [⟨.send ⟨"AT+QLTS=1", []⟩, true⟩,
    ⟨.recv ⟨"+QLTS: \"%[^\"]\"", []⟩, some [.str (String.ofList (qlts i z))]⟩,
    ⟨.recv okFormat, some ok⟩]

variable {mktime : Tm → Int} {rtcMaketime : Tm → Option Int} {old : Tm} {dst : Int}
  {l : List Exchange} {o : Option (Int × Option Int)}

theorem traces_getLatesSyncTime {time : Option String} (h : Traces getLatesSyncTime l (some time))
    (hsynced : Synced i z l) : time = some (String.ofList (qlts i z)) := by
  obtain ⟨ok, hspoken⟩ := hsynced
  obtain ⟨vs, hlocked, rfl⟩ := traces_map_some.mp h
  obtain ⟨_, hspoken', hquery⟩ := traces_locked_timed hlocked
  have hcase := traces_query hquery
  rw [← hspoken', hspoken] at hcase
  cases hcase with
  | done vs ok => rfl

/-- What `getNetworkGMTTime` makes of the string. -/
theorem traces_getNetworkGmtTime (h : Traces (getNetworkGmtTime mktime old dst) l o)
    (hsynced : Synced i z l) (hi : i.year ≤ 2099) :
    o = some (nsapiErrorOk, some (mktime (i.tm old).nextMonth)) := by
  have hreturns : Only False (fun _ => True) getLatesSyncTime :=
    (only_locked trivial trivial (only_timed (fun _ => trivial)
      (only_query trivial trivial trivial))).map
  obtain ⟨time, l₁, l₂, rfl, h₁, h₂⟩ | ⟨hstop, rfl⟩ := traces_bind.mp h
  · cases time with
    | none =>
      obtain ⟨rfl, -⟩ := traces_ret.mp h₂
      rw [List.append_nil] at hsynced
      cases traces_getLatesSyncTime h₁ hsynced
    | some time =>
      obtain ⟨rfl, rfl⟩ := traces_ret.mp h₂
      rw [List.append_nil] at hsynced
      obtain rfl := Option.some.inj (traces_getLatesSyncTime h₁ hsynced)
      have hmon : (i.tm old).mon + 1 = i.month := by
        show (i.month : Int) - 1 + 1 = i.month
        omega
      have hsplit : storedText (sscanf (directives "%22s,%d") (qlts i z)) 0 = qltsTime i z :=
        congrArg Prod.fst (splitSyncTime_qlts i z dst)
      rw [Tm.nextMonth, hmon, String.toList_ofList, hsplit, sscanf_qltsTime i z hi]
      rfl
  · exact ((hreturns.traces hstop).2 rfl).elim

/-- The time of the network is the length of a month late. -/
theorem network_time (hmktime : Converts 200 fun t => some (mktime t))
    (hcarries : i.month = 12 → Carries mktime) (h : Traces (getNetworkGmtTime mktime old dst) l o)
    (hsynced : Synced i z l) (hi : i.year ≤ 2099) :
    ∃ n, o = some (nsapiErrorOk, some n) ∧ i.unixTime < n := by
  have hrange := i.tm_inRange old
  have hyear : (i.tm old).year ≤ 199 := by
    show (i.year : Int) - 1900 ≤ 199
    omega
  have hnext : mktime (i.tm old).nextMonth = (i.tm old).nextMonth.seconds := by
    have hmon : (i.tm old).mon = (i.month : Int) - 1 := rfl
    by_cases hmonth : i.month = 12
    · have htwelve : (i.tm old).mon = 11 := by omega
      rw [hcarries hmonth _ htwelve hrange.year, ← seconds_nextJanuary htwelve hrange.year]
      exact Option.some.inj (hmktime _ hrange.nextJanuary (Int.add_le_add_right hyear 1))
    · have hlt := i.hmonth.2
      have hlate := hrange.nextMonth (by omega)
      exact Option.some.inj (hmktime _ hlate (Int.le_trans hyear (by decide)))
  refine ⟨_, traces_getNetworkGmtTime h hsynced hi, ?_⟩
  rw [hnext, ← i.tm_seconds old]
  exact seconds_lt_nextMonth hrange.mon.1

/-- The time of a position is right. -/
theorem gnss_time (hrtc : Converts 199 rtcMaketime) (v : GnssLocals) (i : Instant) (p : Position)
    (hi : 2000 ≤ i.year ∧ i.year ≤ 2099) :
    (GnssLoc.ofString rtcMaketime v (qgpsloc i p)).gnssutctime = i.unixTime := by
  have hyear : (i.year : Int) - 1900 = (i.year % 100 : Nat) + 100 := by omega
  have htime : (GnssLoc.ofString rtcMaketime v (qgpsloc i p)).gnssutctime =
      (rtcMaketime (i.tm v.time)).getD v.self.gnssutctime := by
    rw [Instant.tm, hyear, GnssLoc.ofString, sscanf_qgpsloc]
    rfl
  have hlast : (i.tm v.time).year ≤ 199 := by
    show (i.year : Int) - 1900 ≤ 199
    omega
  rw [htime, hrtc _ (i.tm_inRange v.time) hlast, Option.getD_some, i.tm_seconds]

/-- Both decoders give the time of the instant. -/
def TimesAgree (i : Instant) (o : Option (Int × Option Int)) (loc : GnssLoc) : Prop :=
  o = some (nsapiErrorOk, some i.unixTime) ∧ loc.gnssutctime = i.unixTime

/-- **Time.** The decoders never agree on the time of the instant: that of the network is late. In
December this needs that `mktime` takes the month after it for January of the next year. -/
theorem times_never (mktime : Tm → Int) (rtcMaketime : Tm → Option Int)
    (hmktime : Converts 200 fun t => some (mktime t)) (i : Instant) (z : Zone) (p : Position)
    (hi : 2000 ≤ i.year ∧ i.year ≤ 2099) (hcarries : i.month = 12 → Carries mktime) (old : Tm)
    (dst : Int) (v : GnssLocals) (l : List Exchange) (o : Option (Int × Option Int))
    (h : Traces (getNetworkGmtTime mktime old dst) l o) (hsynced : Synced i z l) :
    ¬ TimesAgree i o (GnssLoc.ofString rtcMaketime v (qgpsloc i p)) := by
  rintro ⟨ho, -⟩
  obtain ⟨n, ho', hlt⟩ := network_time hmktime hcarries h hsynced hi.2
  rw [ho] at ho'
  cases ho'
  exact Int.lt_irrefl _ hlt

/-! ### Two winter days -/

/-- 13 December 2018, 20:03:15. -/
def december : Instant :=
  ⟨2018, 12, 13, 20, 3, 15, by decide, by decide, by decide, by decide, by decide, by decide⟩

/-- 13 January 2019, 03:40:48. -/
def january : Instant :=
  ⟨2019, 1, 13, 3, 40, 48, by decide, by decide, by decide, by decide, by decide, by decide⟩

def utc : Zone := ⟨'+', 0, 0, .inl rfl, by decide, by decide⟩

/-- A position in the north of England. -/
def somewhere : Position where
  fraction := ['0']
  latitude := ⟨false, ['5', '4'], ['7', '0', '5', '7', '3'], by decide, by decide⟩
  longitude := ⟨true, ['1'], ['5', '6', '6', '1', '1'], by decide, by decide⟩
  hdop := ⟨false, ['1'], ['3'], by decide, by decide⟩
  altitude := ⟨false, ['1', '6', '3'], ['0'], by decide, by decide⟩
  fix := ['2']
  cogdeg := ['0']
  cogmin := ['0', '0']
  spkm := ⟨false, ['0'], ['0'], by decide, by decide⟩
  spkn := ⟨false, ['0'], ['0'], by decide, by decide⟩
  nsat := ['0', '8']
  hfraction := by decide
  hfix := by decide
  hcogdeg := by decide
  hcogmin := by decide
  hnsat := by decide

example : String.ofList (qgpsloc december somewhere) =
    "200315.0,54.70573,-1.56611,1.3,163.0,2,0.00,0.0,0.0,131218,08" := by decide

/-- What is said when the module gives the time. -/
def syncing (i : Instant) : List Exchange :=
  [⟨.lock, ()⟩, ⟨.setTimeout 2000, ()⟩, ⟨.send ⟨"AT+QLTS=1", []⟩, true⟩,
    ⟨.recv ⟨"+QLTS: \"%[^\"]\"", []⟩, some [.str (String.ofList (qlts i utc))]⟩,
    ⟨.recv okFormat, some []⟩, ⟨.setTimeout atTimeout, ()⟩, ⟨.unlock, ()⟩]

theorem synced_syncing (i : Instant) : Synced i utc (syncing i) := ⟨[], rfl⟩

theorem traces_syncing (mktime : Tm → Int) (old : Tm) (dst : Int) (i : Instant) :
    ∃ o, Traces (getNetworkGmtTime mktime old dst) (syncing i) o :=
  ⟨_, traces_iff_replay.mpr rfl⟩

theorem converts_seconds (last : Int) : Converts last fun t => some t.seconds := fun _ _ _ => rfl

theorem carries_seconds : Carries Tm.seconds := fun _ hmon hyear =>
  (seconds_nextJanuary hmon hyear).symm

def zeroTm : Tm := ⟨0, 0, 0, 0, 0, 0, 0, 0, 0⟩

def zeroLocals : GnssLocals :=
  ⟨⟨0, (0, 0), (0, 0), (0, 0), (0, 0), 0, ⟨0, 0⟩, (0, 0), (0, 0), 0⟩, zeroTm, 0, 0, 0⟩

theorem times_never_december :
    ∃ o, Traces (getNetworkGmtTime Tm.seconds zeroTm 0) (syncing december) o ∧
      ¬ TimesAgree december o
        (GnssLoc.ofString (fun t => some t.seconds) zeroLocals (qgpsloc december somewhere)) := by
  obtain ⟨o, h⟩ := traces_syncing Tm.seconds zeroTm 0 december
  exact ⟨o, h, times_never _ _ (converts_seconds 200) december utc somewhere (by decide)
    (fun _ => carries_seconds) _ _ _ _ _ h (synced_syncing december)⟩

/-- The time of 13 February is given for that of 13 January. -/
theorem times_never_january : ¬ ∀ mktime rtcMaketime, (Converts 200 fun t => some (mktime t)) →
    Converts 199 rtcMaketime → ∀ (i : Instant) z p, 2000 ≤ i.year ∧ i.year ≤ 2099 →
    ∀ old dst v l o, Traces (getNetworkGmtTime mktime old dst) l o → Synced i z l →
      TimesAgree i o (GnssLoc.ofString rtcMaketime v (qgpsloc i p)) := by
  intro hall
  obtain ⟨o, h⟩ := traces_syncing Tm.seconds zeroTm 0 january
  have hagree := hall Tm.seconds (fun t => some t.seconds) (converts_seconds 200)
    (converts_seconds 199) january utc somewhere (by decide) zeroTm 0 zeroLocals _ o h
    (synced_syncing january)
  obtain ⟨n, ho, hlt⟩ := network_time (converts_seconds 200) (fun h => absurd h (by decide)) h
    (synced_syncing january) (by decide)
  rw [hagree.1] at ho
  cases ho
  exact Int.lt_irrefl _ hlt

end Bg96.Modem
