import Flexi.DynamicTables.Service
import Flexi.Library.SqlIdentifiers

/-!
# Names in SQL fragments

The names that the choke points let through are what Postgres takes them for: nothing in
them is quoted, escaped or cut off.
-/

namespace Flexi.DynamicTables
open Flexi.Library Flexi.Tenancy

/-- `NAMEDATALEN` less the terminator. -/
def POSTGRES_NAME_BYTES : ℕ := 63

/-- The name under which Postgres knows an identifier. -/
def postgresName (name : String) : List Char := clip POSTGRES_NAME_BYTES name.toList

/-- A non-empty ASCII name that is itself between plain double quotes. -/
structure MeansItself (name : String) : Prop where
  nonempty : name ≠ ""
  ascii : ∀ c ∈ name.toList, c.toNat < 128
  fits : byteCount name.toList ≤ POSTGRES_NAME_BYTES
  escaped : escapeQuotes name.toList = name.toList
  quoted : ∀ rest : List Char, rest.head? ≠ some '"' →
    readIdentifier POSTGRES_NAME_BYTES ('"' :: (name.toList ++ '"' :: rest)) =
      some (name.toList, rest)

/-! ### The pattern -/

theorem identifierPart_of_matches {name : String} (h : matchesIdentifierPattern name = true) :
    name ≠ "" ∧ ∀ c ∈ name.toList, identifierPart c = true := by
  unfold matchesIdentifierPattern at h
  constructor
  · rintro rfl
    cases h
  · split at h
    · cases h
    · rename_i c cs heq
      obtain ⟨hstart, hrest⟩ := Bool.and_eq_true_iff.mp h
      intro d hd
      rw [heq, List.mem_cons] at hd
      rcases hd with rfl | hd
      · rw [identifierStart, Bool.or_eq_true] at hstart
        rcases hstart with hstart | hstart
        · simp [identifierPart, Char.isAlphanum, hstart]
        · simp [identifierPart, hstart]
      · exact List.all_eq_true.mp hrest d hd

theorem toNat_of_identifierPart {c : Char} (h : identifierPart c = true) :
    36 ≤ c.toNat ∧ c.toNat < 128 := by
  have hclass : ((c.isUpper || c.isLower || c.isDigit) || c == '_' || c == '$') = true := h
  have hrange {low high : Char} (hlow : 36 ≤ low.toNat) (hhigh : high.toNat < 128)
      (hc : low.val ≤ c.val ∧ c.val ≤ high.val) : 36 ≤ c.toNat ∧ c.toNat < 128 :=
    ⟨hlow.trans (UInt32.le_iff_toNat_le.mp hc.1), (UInt32.le_iff_toNat_le.mp hc.2).trans_lt hhigh⟩
  simp only [Bool.or_eq_true, beq_iff_eq] at hclass
  rcases hclass with (((hupper | hlower) | hdigit) | rfl) | rfl
  · exact @hrange 'A' 'Z' (by decide) (by decide) (of_decide_eq_true hupper)
  · have hboth := Bool.and_eq_true_iff.mp hlower
    exact @hrange 'a' 'z' (by decide) (by decide) (hboth.imp of_decide_eq_true of_decide_eq_true)
  · have hboth := Bool.and_eq_true_iff.mp hdigit
    exact @hrange '0' '9' (by decide) (by decide) (hboth.imp of_decide_eq_true of_decide_eq_true)
  · decide
  · decide

theorem toNat_lt_of_identifierPart {c : Char} (h : identifierPart c = true) : c.toNat < 128 :=
  (toNat_of_identifierPart h).2

theorem MeansItself.of_matches {name : String} (h : matchesIdentifierPattern name = true)
    (hlength : name.length ≤ POSTGRES_NAME_BYTES) : MeansItself name := by
  obtain ⟨hne, hpart⟩ := identifierPart_of_matches h
  have hascii : ∀ c ∈ name.toList, c.toNat < 128 :=
    fun c hc => toNat_lt_of_identifierPart (hpart c hc)
  have hplain : '"' ∉ name.toList := by
    intro hmem
    have hquote := hpart '"' hmem
    revert hquote
    decide
  have hlist : name.toList ≠ [] := fun heq => hne (String.toList_eq_nil_iff.mp heq)
  have hbytes : byteCount name.toList ≤ POSTGRES_NAME_BYTES := by
    rw [byteCount_ascii hascii]
    exact hlength
  exact ⟨hne, hascii, hbytes, escapeQuotes_eq_self hplain,
    fun rest hrest => readIdentifier_plain hplain hlist hbytes hrest⟩

theorem MeansItself.postgresName_eq {name : String} (h : MeansItself name) :
    postgresName name = name.toList :=
  clip_eq_self h.fits

theorem sanitizeIdentifier_meansItself {name out : String} (h : sanitizeIdentifier name = .ok out) :
    MeansItself out := by
  obtain ⟨rfl, hmatches, hlength⟩ := sanitizeIdentifier_ok h
  exact .of_matches hmatches hlength

theorem resolveTenantSchema_ok {tenantId schema : String}
    (h : resolveTenantSchema tenantId = .ok schema) :
    schema = "tenant_" ++ tenantId ∧ matchesIdentifierPattern schema = true ∧
      schema.length ≤ MAX_SCHEMA_NAME_LENGTH := by
  simp only [resolveTenantSchema] at h
  split_ifs at h with hempty hmatches hlength
  cases h
  exact ⟨rfl, by simpa using hmatches, Nat.le_of_not_lt hlength⟩

theorem resolveTenantSchema_meansItself {tenantId schema : String}
    (h : resolveTenantSchema tenantId = .ok schema) : MeansItself schema := by
  obtain ⟨-, hmatches, hlength⟩ := resolveTenantSchema_ok h
  exact .of_matches hmatches hlength

/-- A shadow name is the column's name with the suffix, checked as a whole. -/
theorem buildShadowColumnName_sanitized {column shadow : String}
    (h : buildShadowColumnName column = .ok shadow) :
    shadow = column ++ SHADOW_COLUMN_SUFFIX ∧ sanitizeIdentifier shadow = .ok shadow := by
  unfold buildShadowColumnName at h
  split at h
  · rename_i hname
    cases h
    obtain ⟨rfl, -⟩ := sanitizeIdentifier_ok hname
    exact ⟨rfl, hname⟩
  · cases h

/-! ### No two names meet -/

/-- The schemas of two tenants are two for Postgres, what the choke points accept means itself,
and a shadow column is told from its column and leads back to it. -/
theorem names_never_collide :
    (∀ tenantId tenantId' schema schema', resolveTenantSchema tenantId = .ok schema →
      resolveTenantSchema tenantId' = .ok schema' → tenantId ≠ tenantId' →
        postgresName schema ≠ postgresName schema') ∧
    (∀ name out, sanitizeIdentifier name = .ok out → out = name ∧ MeansItself name) ∧
    (∀ tenantId schema, resolveTenantSchema tenantId = .ok schema → MeansItself schema) ∧
    ∀ column shadow, buildShadowColumnName column = .ok shadow →
      postgresName shadow = shadow.toList ∧ shadow ≠ column ∧
        ∀ column', buildShadowColumnName column' = .ok shadow → column' = column := by
  refine ⟨?_, ?_, fun _ _ h => resolveTenantSchema_meansItself h, ?_⟩
  · intro tenantId tenantId' schema schema' h h' hne heq
    rw [(resolveTenantSchema_meansItself h).postgresName_eq,
      (resolveTenantSchema_meansItself h').postgresName_eq] at heq
    have hschemas := String.toList_injective heq
    rw [(resolveTenantSchema_ok h).1, (resolveTenantSchema_ok h').1] at hschemas
    exact hne (String.append_right_inj _ |>.mp hschemas)
  · intro name out h
    obtain ⟨rfl, -⟩ := sanitizeIdentifier_ok h
    exact ⟨rfl, sanitizeIdentifier_meansItself h⟩
  · intro column shadow h
    obtain ⟨hshadow, hname⟩ := buildShadowColumnName_sanitized h
    refine ⟨(sanitizeIdentifier_meansItself hname).postgresName_eq, ?_, ?_⟩
    · intro heq
      have hlength := congrArg String.length (hshadow.symm.trans heq)
      simp [SHADOW_COLUMN_SUFFIX] at hlength
    · intro column' h'
      have hsame := (buildShadowColumnName_sanitized h').1.symm.trans hshadow
      exact (String.append_left_inj _).mp hsame

end Flexi.DynamicTables
