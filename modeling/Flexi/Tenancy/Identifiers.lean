import Mathlib.Tactic

/-!
# Postgres identifiers (tenancy/sanitize-identifier.ts, resolve-tenant-schema.ts)

Both choke points test the same pattern `^[A-Za-z_][\w$]*$` and the same
63-byte cap; they differ in what they name and in the errors they throw.
-/

namespace Flexi.Tenancy

/-- `[A-Za-z_]` -/
def identifierStart (c : Char) : Bool := c.isAlpha || c == '_'

/-- `[\w$]` -/
def identifierPart (c : Char) : Bool := c.isAlphanum || c == '_' || c == '$'

/-- `IDENTIFIER_PATTERN` and `SCHEMA_NAME_PATTERN`. -/
def matchesIdentifierPattern (name : String) : Bool :=
  match name.toList with
  | [] => false
  | c :: cs => identifierStart c && cs.all identifierPart

def MAX_IDENTIFIER_LENGTH : ℕ := 63

def MAX_SCHEMA_NAME_LENGTH : ℕ := 63

def sanitizeIdentifier (name : String) : Except String String :=
  if name = "" then
    .error "Refusing to sanitize an empty identifier"
  else if !matchesIdentifierPattern name then
    .error ("Refusing unsafe identifier: " ++ name)
  else if MAX_IDENTIFIER_LENGTH < name.length then
    .error ("Refusing identifier longer than " ++ toString MAX_IDENTIFIER_LENGTH ++
      " bytes (Postgres would silently truncate it, risking a collision): " ++ name)
  else .ok name

def resolveTenantSchema (tenantId : String) : Except String String :=
  let schema := "tenant_" ++ tenantId
  if tenantId = "" then
    .error "Refusing to resolve a schema name for an empty tenantId"
  else if !matchesIdentifierPattern schema then
    .error ("Refusing unsafe schema name derived from tenantId: " ++ tenantId)
  else if MAX_SCHEMA_NAME_LENGTH < schema.length then
    .error ("Refusing schema name longer than " ++ toString MAX_SCHEMA_NAME_LENGTH ++
      " bytes (Postgres would silently truncate it, risking a cross-tenant collision): " ++
      "derived from tenantId " ++ tenantId)
  else .ok schema

/-- `sanitizeIdentifier` validates; it never rewrites. -/
theorem sanitizeIdentifier_ok {name out : String} (h : sanitizeIdentifier name = .ok out) :
    out = name ∧ matchesIdentifierPattern name = true ∧ name.length ≤ MAX_IDENTIFIER_LENGTH := by
  unfold sanitizeIdentifier at h
  split_ifs at h with h1 h2 h3
  cases h
  exact ⟨rfl, by simpa using h2, Nat.le_of_not_lt h3⟩

end Flexi.Tenancy
