import Mathlib.Data.String.Basic

/-! Redis key prefixes for the single-tenant and the multi-tenant mode, as `tenant_keys.py`
and `TenantKeys.java` build them, with the notion of blank text of each language. -/
namespace FluxMeter.Keys

/-- `str.isspace` of one character. -/
def isSpacePy (c : Char) : Bool :=
  let n := c.toNat
  (9 ≤ n && n ≤ 13) || (28 ≤ n && n ≤ 32) || n == 0x85 || n == 0xA0 || n == 0x1680 ||
    (0x2000 ≤ n && n ≤ 0x200A) || n == 0x2028 || n == 0x2029 || n == 0x202F || n == 0x205F ||
    n == 0x3000

/-- `Character.isWhitespace`: no non-breaking space counts. -/
def isWhitespaceJava (c : Char) : Bool :=
  let n := c.toNat
  (9 ≤ n && n ≤ 13) || (28 ≤ n && n ≤ 32) || n == 0x1680 || (0x2000 ≤ n && n ≤ 0x2006) ||
    (0x2008 ≤ n && n ≤ 0x200A) || n == 0x2028 || n == 0x2029 || n == 0x205F || n == 0x3000

/-- `String.isBlank`. -/
def isBlank (s : String) : Bool := s.toList.all isWhitespaceJava

/-- `str.strip` without arguments. -/
def strip (s : String) : String :=
  String.ofList (((s.toList.dropWhile isSpacePy).reverse.dropWhile isSpacePy).reverse)

/-- `tenant_id.strip() if tenant_id and tenant_id.strip() else None`. -/
def stripTenant : Option String → Option String
  | some t => if strip t = "" then none else some (strip t)
  | none => none

namespace Py

def hasTenant : Option String → Bool
  | some t => strip t ≠ ""
  | none => false

/-- The tenant part of every prefix; the tenant is written as it is given. -/
def inTenant (tenantId : Option String) (rest : String) : String :=
  match tenantId with
  | some t => if hasTenant (some t) then "tenant:" ++ t ++ ":" ++ rest else rest
  | none => rest

def customerPrefix (tenantId : Option String) (customerId : String) : String :=
  inTenant tenantId ("customer:" ++ customerId)

def scopePrefix (tenantId : Option String) (kind scopeId : String) : String :=
  inTenant tenantId (kind ++ ":" ++ scopeId)

def rateLimitKey (tenantId : Option String) (customerId : String) (minute : ℤ) : String :=
  inTenant tenantId ("ratelimit:" ++ customerId ++ ":" ++ toString minute)

def packageKey (tenantId : Option String) (customerId : String) : String :=
  inTenant tenantId ("package:" ++ customerId ++ ":tokens_remaining")

end Py

def hasTenant : Option String → Bool
  | some t => !isBlank t
  | none => false

def inTenant (tenantId : Option String) (rest : String) : String :=
  match tenantId with
  | some t => if hasTenant (some t) then "tenant:" ++ t ++ ":" ++ rest else rest
  | none => rest

def customerPrefix (tenantId : Option String) (customerId : String) : String :=
  inTenant tenantId ("customer:" ++ customerId)

def globalKey (tenantId : Option String) (suffix : String) : String :=
  inTenant tenantId ("global:" ++ suffix)

/-- `scopePrefix`, with kind `span` or `session`. -/
def scopePrefix (tenantId : Option String) (kind scopeId : String) : String :=
  inTenant tenantId (kind ++ ":" ++ scopeId)

def packageKey (tenantId : Option String) (customerId : String) : String :=
  inTenant tenantId ("package:" ++ customerId ++ ":tokens_remaining")

def windowId (tenantId : Option String) (customerId modelId : String) (windowStart : ℤ) : String :=
  let lite := customerId ++ "|" ++ modelId ++ "|" ++ toString windowStart
  match tenantId with
  | some t => if hasTenant (some t) then t ++ "|" ++ lite else lite
  | none => lite

def windowReservationsKey (windowId : String) : String := "window:reservations:" ++ windowId

end FluxMeter.Keys
