import Mathlib.Algebra.GroupWithZero.Nat
import Mathlib.Algebra.Group.Int.Defs

/-!
# Error codes and machine integers
-/

namespace Bg96

/-! ## `nsapi_error_t` -/

def nsapiErrorOk : Int := 0
def nsapiErrorWouldBlock : Int := -3001
def nsapiErrorUnsupported : Int := -3002
def nsapiErrorParameter : Int := -3003
def nsapiErrorNoConnection : Int := -3004
def nsapiErrorNoSocket : Int := -3005
def nsapiErrorNoMemory : Int := -3007
def nsapiErrorAuthFailure : Int := -3011
def nsapiErrorDeviceError : Int := -3012
def nsapiErrorIsConnected : Int := -3015
def nsapiErrorConnectionTimeout : Int := -3017
def nsapiErrorTimeout : Int := -3019

theorem nsapiErrorDeviceError_neg : nsapiErrorDeviceError < 0 := by decide

/-! ## Machine integers -/

/-- The sum of two `uint32_t`. -/
def u32Add (a b : Nat) : Nat := (a + b) % 2 ^ 32

/-- The difference of two `uint32_t`. -/
def u32Sub (a b : Nat) : Nat := (a + (2 ^ 32 - b)) % 2 ^ 32

/-- A `uint32_t` returned as an `int`. -/
def toInt (n : Nat) : Int := if n < 2 ^ 31 then n else n - 2 ^ 32

theorem u32Add_of_lt {a b : Nat} (h : a + b < 2 ^ 32) : u32Add a b = a + b := Nat.mod_eq_of_lt h

theorem u32Sub_of_le {a b : Nat} (h : b ≤ a) (ha : a < 2 ^ 32) : u32Sub a b = a - b := by
  unfold u32Sub; omega

theorem toInt_of_lt {n : Nat} (h : n < 2 ^ 31) : toInt n = n := if_pos h

end Bg96
