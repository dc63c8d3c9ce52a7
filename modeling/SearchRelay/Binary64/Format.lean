import SearchRelay.Binary64.Shortest

namespace SearchRelay.Binary64

/-- Where a decimal is written positionally; outside, it gets an exponent with its sign. -/
structure Style where
  positional : Int → Bool

def Style.plain : Style := ⟨fun _ => true⟩

def Style.scientific : Style := ⟨fun e => -5 ≤ e && e ≤ 15⟩

def zeros (n : Nat) : String := String.ofList (List.replicate n '0')

/-- Digits with a point such that the first digit counts `10 ^ e`; a whole number ends in `.0`. -/
def positionalText (digits : String) (e : Int) : String :=
  if e < 0 then "0." ++ zeros ((-e).toNat - 1) ++ digits
  else
    let whole := e.toNat + 1
    if digits.length ≤ whole then digits ++ zeros (whole - digits.length) ++ ".0"
    else (digits.take whole).toString ++ "." ++ (digits.drop whole).toString

def exponentText (digits : String) (e : Int) : String :=
  let mantissa :=
    if digits.length ≤ 1 then digits
    else (digits.take 1).toString ++ "." ++ (digits.drop 1).toString
  mantissa ++ "e" ++ (if e < 0 then "-" else "+") ++ toString e.natAbs

def format (style : Style) : Binary64 → String
  | .nan => "NaN"
  | .infinite negative => if negative then "-inf" else "inf"
  | .finite negative significand exponent =>
    let sign := if negative then "-" else ""
    if significand = 0 then sign ++ "0.0"
    else
      let (d, p) := shortest significand exponent
      let digits := toString d
      let e := p + (digits.length : Int) - 1
      sign ++ (if style.positional e then positionalText digits e else exponentText digits e)

end SearchRelay.Binary64
