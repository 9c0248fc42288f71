import Gateway.Config.Settings
import Gateway.Files
import Gateway.Text.Quoted
import Gateway.Text.Utf8

/-! The certificate and the private key of the secure listener. -/
namespace Gateway.Net

inductive TlsError where
  | missingCertificate (path : String)
  | missingKey (path : String)
  | unreadable (cause : FileError)
  /-- A section of the certificate's file is not closed or not in base 64. -/
  | malformedCertificate
  /-- The key's file holds no private key, or more than one. -/
  | notOneKey
  | malformedKey
  | noCertificate
  deriving DecidableEq

def TlsError.message : TlsError → String
  | missingCertificate path => "Certificate file not found: " ++ Text.Quoted.quote path
  | missingKey path => "Private key file not found: " ++ Text.Quoted.quote path
  | unreadable cause => cause.message
  | malformedCertificate => "invalid certificate"
  | notOneKey => "private key format not supported"
  | malformedKey => "failed to parse private key as RSA, ECDSA, or EdDSA"
  | noCertificate => "peer sent no certificates"

namespace Pem

def base64Digit? (b : UInt8) : Option Nat :=
  if 65 ≤ b ∧ b ≤ 90 then some (b.toNat - 65)
  else if 97 ≤ b ∧ b ≤ 122 then some (b.toNat - 71)
  else if 48 ≤ b ∧ b ≤ 57 then some (b.toNat + 4)
  else if b = 43 then some 62
  else if b = 47 then some 63
  else none

/-- Groups of four digits; the last may end in padding. -/
def base64? : Bytes → Option Bytes
  | [] => some []
  | [a, b, 61, 61] => do
    let n := (← base64Digit? a) * 64 + (← base64Digit? b)
    some [(n / 16).toUInt8]
  | [a, b, c, 61] => do
    let n := ((← base64Digit? a) * 64 + (← base64Digit? b)) * 64 + (← base64Digit? c)
    some [(n / 1024).toUInt8, (n / 4).toUInt8]
  | a :: b :: c :: d :: rest => do
    let n := (((← base64Digit? a) * 64 + (← base64Digit? b)) * 64 + (← base64Digit? c)) * 64
      + (← base64Digit? d)
    some ((n / 65536).toUInt8 :: (n / 256).toUInt8 :: n.toUInt8 :: (← base64? rest))
  | _ => none

/-- The label of a line that begins or ends a section. -/
def mark? (word : String) (line : Bytes) : Option Bytes :=
  let head : Bytes := .ofLatin1 ("-----" ++ word ++ " ")
  let tail : Bytes := .ofLatin1 "-----"
  if head.isPrefixOf line && tail.reverse.isPrefixOf line.reverse
      && head.length + 5 ≤ line.length then
    some ((line.drop head.length).take (line.length - head.length - 5))
  else none

/-- A labelled part of a text, with what its base 64 stands for; there is no content if the part is
not closed or is not base 64. -/
structure Section where
  label : Bytes
  content : Option Bytes

/-- The sections among some lines, after an open one; what stands between them does not matter. -/
def sectionsFrom (current : Option (Bytes × Bytes)) : List Bytes → List Section
  | [] => current.toList.map fun (label, _) => ⟨label, none⟩
  | line :: rest =>
    match current with
    | none => sectionsFrom ((mark? "BEGIN" line).map (·, [])) rest
    | some (label, body) =>
      if mark? "END" line == some label then ⟨label, base64? body⟩ :: sectionsFrom none rest
      else sectionsFrom (some (label, body ++ line)) rest

def sections (content : Bytes) : List Section :=
  sectionsFrom none ((Bytes.splitOn 10 content).map Bytes.trim)

def certificateLabel : Bytes := .ofLatin1 "CERTIFICATE"

def keyLabels : List Bytes :=
  ["PRIVATE KEY", "RSA PRIVATE KEY", "EC PRIVATE KEY"].map Bytes.ofLatin1

/-- The certificates of a text, all of whose sections have to be sound. -/
def certificates? (content : Bytes) : Option (List Bytes) := do
  let sound ← (sections content).mapM fun s => s.content.map (s.label, ·)
  some ((sound.filter (·.1 == certificateLabel)).map (·.2))

/-- The private keys of a text; a section that is not sound is left out. -/
def keys (content : Bytes) : List Bytes :=
  ((sections content).filter (keyLabels.contains ·.label)).filterMap (·.content)

/-- A DER sequence that is as long as it says. -/
def isSequence : Bytes → Bool
  | 0x30 :: n :: rest =>
    if n < 0x80 then rest.length == n.toNat
    else
      let count := n.toNat - 0x80
      let length := (rest.take count).foldl (fun acc b => acc * 256 + b.toNat) 0
      rest.length == count + length
  | _ => false

end Pem

def isPresent (files : Files) (path : String) : Bool :=
  (files.lookup (Text.Utf8.encode path)).isOk

def contentOf (files : Files) (path : String) : Except TlsError Bytes :=
  (files.read (Text.Utf8.encode path)).mapError .unreadable

/-- Checks that both files are there and hold a certificate and one private key. -/
def loadTls (files : Files) (tls : Config.TlsSettings) : Except TlsError Unit := do
  if !isPresent files tls.certPath then throw (.missingCertificate tls.certPath)
  if !isPresent files tls.keyPath then throw (.missingKey tls.keyPath)
  let certificateText ← contentOf files tls.certPath
  let keyText ← contentOf files tls.keyPath
  let some certificates := Pem.certificates? certificateText | throw .malformedCertificate
  let [key] := Pem.keys keyText | throw .notOneKey
  if !Pem.isSequence key then throw .malformedKey
  if certificates.isEmpty then throw .noCertificate
  if !certificates.all Pem.isSequence then throw .malformedCertificate

end Gateway.Net
