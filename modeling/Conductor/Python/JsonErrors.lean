/-
What `json.loads` raises: it knows two kinds of exceptions, whatever the text.
-/
import Conductor.Python.Json

namespace Conductor

namespace Json

/-- A text that is no JSON, or an integer of too many digits. -/
def ReadError (e : PyExc) : Prop := e.typeName = "JSONDecodeError" ∨ e.typeName = "ValueError"

theorem readError_decode : ReadError decodeError := .inl rfl

theorem readEscapedUnit_error {cs : List Char} {e : PyExc}
    (herror : readEscapedUnit cs = .error e) : e = decodeError := by
  unfold readEscapedUnit at herror
  cases hfirst : readUnit cs with
  | none =>
      rw [hfirst] at herror
      cases herror
      rfl
  | some first =>
      simp only [hfirst] at herror
      split at herror
      · cases hnext : (expect '\\' first.2).bind (expect 'u') with
        | none =>
            simp only [hnext] at herror
            cases herror
        | some second =>
            cases hsecond : readUnit second with
            | none =>
                simp only [hnext, hsecond] at herror
                cases herror
                rfl
            | some pair =>
                simp only [hnext, hsecond] at herror
                split at herror <;> cases herror
      · cases herror

theorem readChar_error {cs : List Char} {e : PyExc} (herror : readChar cs = .error e) :
    ReadError e := by
  have hdecode : e = decodeError := by
    unfold readChar at herror
    split at herror
    · exact (Except.error.inj herror).symm
    · split at herror
      · split at herror
        · exact (Except.error.inj herror).symm
        · split at herror
          · exact readEscapedUnit_error herror
          · split at herror
            · cases herror
            · exact (Except.error.inj herror).symm
      · split at herror
        · exact (Except.error.inj herror).symm
        · cases herror
  exact hdecode ▸ readError_decode

theorem readString_error {fuel : Nat} {cs : List Char} {e : PyExc}
    (herror : readString fuel cs = .error e) : ReadError e := by
  induction fuel generalizing cs with
  | zero =>
      cases herror
      exact readError_decode
  | succ fuel ih =>
      cases cs with
      | nil =>
          cases herror
          exact readError_decode
      | cons c rest =>
          rw [readString] at herror
          split at herror
          · cases herror
          · cases hchar : readChar (c :: rest) with
            | error e' =>
                rw [hchar] at herror
                cases herror
                exact readChar_error hchar
            | ok read =>
                rw [hchar] at herror
                cases hrest : readString fuel read.2 with
                | error e' =>
                    simp only [hrest, Except.map] at herror
                    cases herror
                    exact ih hrest
                | ok others =>
                    simp only [hrest, Except.map] at herror
                    cases herror

theorem readScalar_error {cs : List Char} {e : PyExc} (herror : readScalar cs = .error e) :
    ReadError e := by
  have hunsigned : ∀ {negative cs}, readUnsigned negative cs = .error e → ReadError e := by
    intro negative cs hread
    unfold readUnsigned intOf at hread
    dsimp only at hread
    split at hread
    · cases hread
      exact readError_decode
    · split at hread
      · split at hread
        · cases hread
          exact .inr rfl
        · cases hread
      · cases hread
  unfold readScalar readNumber at herror
  split at herror
  · cases herror
  · split at herror <;> exact hunsigned herror
theorem readKey_error {cs : List Char} {e : PyExc} (herror : readKey cs = .error e) :
    ReadError e := by
  unfold readKey at herror
  split at herror
  · exact Except.error.inj herror ▸ readError_decode
  · rename_i rest _
    cases hread : readString rest.length rest with
    | error e' =>
        rw [hread] at herror
        cases herror
        exact readString_error hread
    | ok key =>
        simp only [hread] at herror
        split at herror
        · exact Except.error.inj herror ▸ readError_decode
        · cases herror

/-- By induction on the fuel that the three readers share. -/
theorem readValue_errors (fuel : Nat) :
    (∀ {cs e}, readValue fuel cs = .error e → ReadError e) ∧
    (∀ {items cs e}, readElements fuel items cs = .error e → ReadError e) ∧
    ∀ {items cs e}, readMembers fuel items cs = .error e → ReadError e := by
  induction fuel with
  | zero =>
      refine ⟨?_, ?_, ?_⟩
      · intro cs e herror
        rw [readValue] at herror
        exact Except.error.inj herror ▸ readError_decode
      · intro items cs e herror
        rw [readElements] at herror
        exact Except.error.inj herror ▸ readError_decode
      · intro items cs e herror
        rw [readMembers] at herror
        exact Except.error.inj herror ▸ readError_decode
  | succ fuel ih =>
      obtain ⟨hvalue, helements, hmembers⟩ := ih
      refine ⟨?value, ?elements, ?members⟩
      case value =>
        intro cs e herror
        cases cs with
        | nil =>
            simp only [readValue] at herror
            exact Except.error.inj herror ▸ readError_decode
        | cons c cs =>
            rw [readValue] at herror
            split at herror
            · cases hread : readString cs.length cs with
              | error e' =>
                  rw [hread] at herror
                  cases herror
                  exact readString_error hread
              | ok read =>
                  rw [hread] at herror
                  cases herror
            · split at herror
              · dsimp only at herror
                split at herror
                · cases herror
                · exact helements herror
              · split at herror
                · dsimp only at herror
                  split at herror
                  · cases herror
                  · exact hmembers herror
                · exact readScalar_error herror
      case elements =>
        intro items cs e herror
        rw [readElements] at herror
        cases hread : readValue fuel cs with
        | error e' =>
            rw [hread] at herror
            cases herror
            exact hvalue hread
        | ok read =>
            simp only [hread] at herror
            split at herror
            · cases herror
            · exact helements herror
            · exact Except.error.inj herror ▸ readError_decode
      case members =>
        intro items cs e herror
        rw [readMembers] at herror
        cases hkey : readKey cs with
        | error e' =>
            rw [hkey] at herror
            cases herror
            exact readKey_error hkey
        | ok key =>
            cases hread : readValue fuel key.2 with
            | error e' =>
                simp only [hkey, hread] at herror
                cases herror
                exact hvalue hread
            | ok read =>
                simp only [hkey, hread] at herror
                split at herror
                · cases herror
                · exact hmembers herror
                · exact Except.error.inj herror ▸ readError_decode

theorem loads_error {text : String} {e : PyExc} (herror : loads text = .error e) : ReadError e := by
  unfold loads at herror
  dsimp only at herror
  split at herror
  · exact Except.error.inj herror ▸ readError_decode
  · split at herror
    · rename_i hread
      cases herror
      exact (readValue_errors _).1 hread
    · split at herror
      · cases herror
      · exact Except.error.inj herror ▸ readError_decode

end Json

end Conductor
