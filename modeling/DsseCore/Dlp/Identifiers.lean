import DsseCore.Go.Regexp

/-!
# Identifiers

The identifiers that the inspection looks for: the types under which it reports them, the checks of numbers, and the
expressions for credentials and phone numbers with the literals that gate them.
-/

namespace DsseCore.Dlp

open Go

/-- The type of a finding: one of those below, or a name that an operator chose. -/
abbrev IdentifierType := String

def MyNumber : IdentifierType := "my_number"
def CorporateNumber : IdentifierType := "corporate_number"
def CreditCard : IdentifierType := "credit_card"
def APIKey : IdentifierType := "api_key"
def Email : IdentifierType := "email"
def Phone : IdentifierType := "phone"

def isWordByte (b : Byte) : Bool := b == 0x5F || asciiDigit b || asciiUpper b || asciiLower b

def digitAt (b : List Byte) (i : ℕ) : ℕ := ((b.getD i 0x30) - 0x30).toNat

/-- The check digit over the first eleven digits, the last of them first. -/
def validMyNumber (b : List Byte) : Bool :=
  if b.length ≠ 12 then false
  else
    let sum := ((List.range 11).map fun i =>
      digitAt b (10 - i) * if i + 1 ≥ 7 then i + 1 - 5 else i + 1 + 1).sum
    let r := sum % 11
    (if r > 1 then 11 - r else 0) == digitAt b 11

/-- The first digit checks the twelve that follow, the last of them first. -/
def validCorporateNumber (b : List Byte) : Bool :=
  if b.length ≠ 13 then false
  else
    let sum := ((List.range 12).map fun i => digitAt b (12 - i) * if (i + 1) % 2 = 0 then 2 else 1).sum
    9 - sum % 9 == digitAt b 0

/-- The sum of the Luhn check from the last digit on; every second digit is doubled. -/
def luhnSum : Bool → List Byte → ℕ
  | _, [] => 0
  | alt, b :: l =>
    let d := (b - 0x30).toNat
    (if alt then if d * 2 > 9 then d * 2 - 9 else d * 2 else d) + luhnSum (!alt) l

def luhnValid (b : List Byte) : Bool := luhnSum false b.reverse % 10 == 0

def classify (digits : List Byte) : List IdentifierType :=
  if digits.length = 12 then if validMyNumber digits then [MyNumber] else []
  else if digits.length = 13 then
    (if validCorporateNumber digits then [CorporateNumber] else []) ++ if luhnValid digits then [CreditCard] else []
  else if 14 ≤ digits.length ∧ digits.length ≤ 19 then if luhnValid digits then [CreditCard] else []
  else []

def apiKeyLiterals : List (List Byte) :=
  ["AKIA","AIza","ghp_","gho_","ghu_","ghs_","ghr_","xox","sk_live_","sk-ant-","eyJ","-----BEGIN "].map ascii

def phoneJPLiterals : List (List Byte) := ["070","080","090"].map ascii

def literal (s : String) : Regexp := .text (ascii s)

def oneOf (l : List (ℕ × ℕ)) : Regexp := .char (.ranges l)

/-- `[0-9A-Za-z]` and further characters. -/
def alnum (more : List ℕ) : List (ℕ × ℕ) := [(0x30,0x39),(0x41,0x5A),(0x61,0x7A)] ++ more.map fun c => (c,c)

/-- `AKIA[0-9A-Z]{16}` -/
def awsKeyRE : Regexp := .concat (literal "AKIA") (.repeated (oneOf [(0x30,0x39),(0x41,0x5A)]) 16 16 false)

/-- `gh[pousr]_[0-9A-Za-z]{36,251}` -/
def githubTokenRE : Regexp :=
  .concat (literal "gh") (.concat (oneOf [(0x6F,0x70),(0x72,0x73),(0x75,0x75)])
    (.concat (literal "_") (.repeated (oneOf (alnum [])) 36 251 false)))

/-- `AIza[0-9A-Za-z_\-]{35}` -/
def googleKeyRE : Regexp := .concat (literal "AIza") (.repeated (oneOf (alnum [0x5F,0x2D])) 35 35 false)

/-- `xox[baprs]-[0-9A-Za-z\-]{10,240}` -/
def slackTokenRE : Regexp :=
  .concat (literal "xox") (.concat (oneOf [(0x61,0x62),(0x70,0x70),(0x72,0x73)])
    (.concat (literal "-") (.repeated (oneOf (alnum [0x2D])) 10 240 false)))

/-- `sk_live_[0-9A-Za-z]{16,240}` -/
def stripeKeyRE : Regexp := .concat (literal "sk_live_") (.repeated (oneOf (alnum [])) 16 240 false)

/-- `sk-ant-[0-9A-Za-z_\-]{16,240}` -/
def anthropicKeyRE : Regexp := .concat (literal "sk-ant-") (.repeated (oneOf (alnum [0x5F,0x2D])) 16 240 false)

/-- `-----BEGIN [A-Z ]{0,32}PRIVATE KEY-----` -/
def privateKeyRE : Regexp :=
  .concat (literal "-----BEGIN ") (.concat (.repeated (oneOf [(0x20,0x20),(0x41,0x5A)]) 0 32 false)
    (literal "PRIVATE KEY-----"))

/-- `eyJ[0-9A-Za-z_\-]{10,1000}\.eyJ[0-9A-Za-z_\-]{10,1000}\.[0-9A-Za-z_\-]{10,1000}` -/
def jwtRE : Regexp :=
  let part := Regexp.repeated (oneOf (alnum [0x5F,0x2D])) 10 1000 false
  .concat (literal "eyJ") (.concat part (.concat (literal ".eyJ") (.concat part (.concat (literal ".") part))))

def apiKeyRE : Regexp :=
  .alternate awsKeyRE (.alternate githubTokenRE (.alternate googleKeyRE (.alternate slackTokenRE
    (.alternate stripeKeyRE (.alternate anthropicKeyRE (.alternate privateKeyRE jwtRE))))))

/-- `0[789]0[-\s]?[0-9]{4}[-\s]?[0-9]{4}` -/
def phoneJPRE : Regexp :=
  let separator := Regexp.quest (oneOf [(0x09,0x0A),(0x0C,0x0D),(0x20,0x20),(0x2D,0x2D)]) false
  let four := Regexp.repeated (oneOf [(0x30,0x39)]) 4 4 false
  .concat (literal "0") (.concat (oneOf [(0x37,0x39)]) (.concat (literal "0")
    (.concat separator (.concat four (.concat separator four)))))

end DsseCore.Dlp
