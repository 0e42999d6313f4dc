import BG96Driver.Modem.Files

/-!
# `BG96TLSSocket`

The part of `BG96TLSSocket` that uploads the certificates and the key, and configures the files of
the SSL context.
-/

namespace Bg96.Tls

open Program Modem

/-- The members of `BG96TLSSocket` that these functions use. -/
structure BG96TLSSocket where
  sslctxId : Int

/-- `BG96TLSSocket::BG96TLSSocket`. -/
def BG96TLSSocket.ctor : BG96TLSSocket := ⟨0⟩

/-- `BG96TLSSocket::set_socket_id`. -/
def setSocketId (self : BG96TLSSocket) (socketId : Int) : BG96TLSSocket :=
  { self with sslctxId := socketId }

/-- The characters of a `const char *`, without the `NUL` at their end. -/
abbrev Chars := List UInt8

/-- `BG96TLSSocket::configure_cacert_path`. -/
def configureCacertPath (self : BG96TLSSocket) (path : String) : At Int := do
  return if (← Modem.configureCacertPath path self.sslctxId) ≠ 0 then 1 else 0

/-- `BG96TLSSocket::configure_client_cert_path`. -/
def configureClientCertPath (self : BG96TLSSocket) (path : String) : At Int := do
  return if (← Modem.configureClientCertPath path self.sslctxId) ≠ 0 then 1 else 0

/-- `BG96TLSSocket::configure_privkey_path`. -/
def configurePrivkeyPath (self : BG96TLSSocket) (path : String) : At Int := do
  return if (← Modem.configurePrivkeyPath path self.sslctxId) ≠ 0 then 1 else 0

/-- A file is uploaded, and its name is configured. -/
def setPem (filename : String) (configure : String → At Int) : Option Chars → At Int
  | none => return nsapiErrorDeviceError
  | some pem => do
    if (← sendFile pem filename true) ≠ 0 then
      return if (← configure filename) ≠ 0 then nsapiErrorOk else nsapiErrorDeviceError
    else return nsapiErrorDeviceError

/-- `BG96TLSSocket::set_root_ca_cert`. -/
def setRootCaCert (self : BG96TLSSocket) (cacert : Option Chars) : At Int :=
  setPem "cacert.pem" (configureCacertPath self) cacert

/-- `BG96TLSSocket::set_cert_pem`. -/
def setCertPem (self : BG96TLSSocket) (clientCertPem : Option Chars) : At Int :=
  setPem "clientcert.pem" (configureClientCertPath self) clientCertPem

/-- `BG96TLSSocket::set_privkey_pem`. It configures the path of the certificate. -/
def setPrivkeyPem (self : BG96TLSSocket) (clientPrivateKeyPem : Option Chars) : At Int :=
  setPem "privkey.pem" (configureClientCertPath self) clientPrivateKeyPem

/-- `BG96TLSSocket::set_client_cert_key`. -/
def setClientCertKey (self : BG96TLSSocket) (clientCertPem clientPrivateKeyPem : Option Chars) :
    At Int := do
  let rc ← if clientCertPem.isSome then setCertPem self clientCertPem else pure nsapiErrorOk
  if rc = nsapiErrorOk ∧ clientPrivateKeyPem.isSome then setPrivkeyPem self clientPrivateKeyPem
  else return rc

end Bg96.Tls
