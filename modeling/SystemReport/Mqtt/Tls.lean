import SystemReport.Config.Load

/-!
# TLS material

`src/mqttclient/tls.rs`, and what the publisher hands to the TLS library.  The library itself
(`NativeTls`) is a parameter: it reads certificates and keys and builds a connector, or says why it
cannot.
-/

set_option autoImplicit false

namespace SystemReport
namespace Mqtt

/-- The builder of a TLS connector. -/
structure TlsBuilder (Certificate Identity : Type) where
  rootCertificates : List Certificate
  builtInRoots : Bool
  identity : Option Identity
  acceptInvalidHostnames : Bool

/-- What `native_tls` does for this program. -/
structure NativeTls (Certificate Identity Connector : Type) where
  certificateFromPem : String → Except String Certificate
  identityFromPkcs8 : (cert key : String) → Except String Identity
  build : TlsBuilder Certificate Identity → Except String Connector

/-! ## PEM blocks -/

/-- The loop of `pem_blocks`: the blocks from one marker to the other, each followed by a newline;
none if a block does not end. -/
def pemBlocksFrom (opening closing : List Char) (hclosing : closing ≠ []) (rest : List Char) :
    Option (List Char) :=
  match _hopen : Text.findList opening rest with
  | none => some []
  | some (_, body) =>
    match _hclose : Text.findList closing (opening ++ body) with
    | none => none
    | some (block, rest') =>
      (pemBlocksFrom opening closing hclosing rest').map fun more =>
        block ++ closing ++ '\n' :: more
termination_by rest.length
decreasing_by
  have hrest := Text.length_lt_of_findList hclosing _hclose
  rw [Text.findList_eq_some _hopen]
  simp only [List.length_append] at hrest ⊢
  omega

/-- `pem_blocks`. -/
def pemBlocks (text kind : String) : Except String String :=
  let opening := "-----BEGIN " ++ kind ++ "-----"
  let closing := "-----END " ++ kind ++ "-----"
  match pemBlocksFrom opening.toList closing.toList (by simp [closing]) text.toList with
  | some (c :: cs) => .ok (.ofList (c :: cs))
  | _ => .error ("TLS identity requires PEM " ++ kind ++ " material")

/-- The error about a client key that is encrypted or not in PKCS#8. -/
def legacyKey : String :=
  "TLS client key must be unencrypted PKCS#8 PEM; convert legacy keys with openssl pkcs8 " ++
    "-topk8 -nocrypt (see upgrade-from-python-recipe.md)"

variable {Certificate Identity Connector : Type}

/-- `identity`. -/
def identity (tls : NativeTls Certificate Identity Connector) (platform : Platform)
    (certfile keyfile : String) : Except String Identity := do
  let cert ← pemBlocks (← platform.readFile certfile) "CERTIFICATE"
  let key ← (pemBlocks (← platform.readFile keyfile) "PRIVATE KEY").mapError fun _ => legacyKey
  tls.identityFromPkcs8 cert key

/-! ## Trust anchors -/

/-- `str::split_inclusive`: a piece ends with the separator or at the end of the text. -/
def splitInclusive (separator : List Char) (hseparator : separator ≠ []) (text : List Char) :
    List (List Char) :=
  match _h : Text.findList separator text with
  | some (piece, rest) => (piece ++ separator) :: splitInclusive separator hseparator rest
  | none => if text = [] then [] else [text]
termination_by text.length
decreasing_by exact Text.length_lt_of_findList hseparator _h

/-- The certificates of a PEM bundle. -/
def trustAnchors (tls : NativeTls Certificate Identity Connector) (pem : String) :
    Except String (List Certificate) :=
  let parts := splitInclusive "-----END CERTIFICATE-----".toList (by decide) pem.toList
  (parts.filter fun part => Text.containsList "-----BEGIN CERTIFICATE-----".toList part).mapM
    fun part => tls.certificateFromPem (.ofList part)

end Mqtt
end SystemReport
