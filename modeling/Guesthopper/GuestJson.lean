import Guesthopper.ClientDoors
import Guesthopper.JsonObject
import Guesthopper.LossyText
import Guesthopper.SessionText

/-! The agent's control frames as the host reads them. Of `json.loads` it is relied on that it
reads an object of strings and small integers as serde_json writes one. -/
namespace Guesthopper.GuestJson
open FrameBytes SessionText ClientDoors

theorem unhexDigit {n : Nat} (small : n < 16) : JsonObject.unhex (hexDigit n) = some n := by
  have all : ∀ n, n < 16 → JsonObject.unhex (hexDigit n) = some n := by decide
  exact all n small

theorem readControl {n : Nat} (small : n < 32) (rest : List Char) :
    JsonObject.readChar (['\\','u','0','0',hexDigit (n / 16),hexDigit (n % 16)] ++ rest) = some (Char.ofNat n,rest) := by
  have zero : JsonObject.unhex '0' = some 0 := rfl
  have value : 0 * 4096 + 0 * 256 + n / 16 * 16 + n % 16 = n := by omega
  have scalar : ¬ (0xD800 ≤ n ∧ n < 0xE000) := by omega
  simp only [List.cons_append,List.nil_append,JsonObject.readChar,if_pos,JsonObject.readEscape,JsonObject.readUnit,zero,
    unhexDigit (show n / 16 < 16 by omega),unhexDigit (show n % 16 < 16 by omega),bind,Option.bind,value,if_neg scalar]

theorem jsonUndone : JsonObject.Undone jsonChar := by
  intro c rest
  have same : Char.ofNat c.toNat = c := Char.ofNat_toNat c
  unfold jsonChar
  split
  case h_8 n _ _ _ _ _ _ _ =>
    split
    · rename_i small
      rw [readControl small,same]
    · rename_i large
      have notEscape : c ≠ '\\' := by intro is; subst is; contradiction
      have notQuote : c ≠ '"' := by intro is; subst is; contradiction
      simp [JsonObject.readChar,notEscape,notQuote,large]
  all_goals
    rename_i value
    rw [← same,value]
    rfl

def toValue : JsonObject.Scalar → Value
  | .int n => .int n
  | .str cs => .str (String.ofList cs)

def fieldsOf (ms : List JsonObject.Member) (key : String) : Option Value := (JsonObject.lookup key.toList ms).map toValue

-- What the agent writes of numbers is an i32.
def Written : JsonObject.Scalar → Prop
  | .int n => -2^31 ≤ n ∧ n < 2^31
  | .str _ => True

structure Reads (j : Json) : Prop where
  object : ∀ ms, (ms.map Prod.fst).Nodup → (∀ m ∈ ms, Written m.2) →
    j.loads (utf8 (JsonObject.objectText jsonChar ms)) = .object (fieldsOf ms)

def readerJson : Json where
  loads raw := match JsonObject.readObject (LossyText.decode raw) with
    | some ms => .object (fieldsOf ms)
    | none => .invalid "Expecting value: line 1 column 1 (char 0)"
  loadsEmpty := ⟨_,rfl⟩
  loadsBraces := rfl

theorem readerReads : Reads readerJson := by
  refine ⟨?_⟩
  intro ms _ _
  have decoded : LossyText.decode (utf8 (JsonObject.objectText jsonChar ms)) = JsonObject.objectText jsonChar ms :=
    LossyText.decodeEncoded _
  simp only [readerJson,decoded,JsonObject.readObjectText jsonUndone]

section Control
variable {j : Json}

theorem exitText (raw : WaitResult) (why : Override) : (exitFrame raw why).payload =
    utf8 (JsonObject.objectText jsonChar [("code".toList,.int (exitFields raw why).1),
      ("reason".toList,.str (exitFields raw why).2.toList)]) := by
  have shape : (exitFrame raw why).payload = utf8 ("\x7b\"code\":".toList ++ (toString (exitFields raw why).1).toList ++
      ",\"reason\":".toList ++ jsonString (exitFields raw why).2 ++ ['}']) := rfl
  rw [shape]
  generalize exitFields raw why = said
  refine congrArg utf8 ?_
  simp [JsonObject.objectText,JsonObject.membersText,JsonObject.memberText,JsonObject.Scalar.text,JsonObject.quoted,
    jsonString,jsonChar]

theorem errorText (msg : String) : (errorFrame msg).payload =
    utf8 (JsonObject.objectText jsonChar [("message".toList,.str msg.toList)]) := by
  refine congrArg utf8 ?_
  simp [JsonObject.objectText,JsonObject.membersText,JsonObject.memberText,JsonObject.Scalar.text,JsonObject.quoted,
    jsonString,jsonChar]

theorem exitLoads (reads : Reads j) (raw : WaitResult) (why : Override) :
    ∃ fields, j.loads (exitFrame raw why).payload = .object fields ∧
      fields "code" = some (.int (exitFields raw why).1) ∧ fields "reason" = some (.str (exitFields raw why).2) := by
  have small : Written (.int (exitFields raw why).1) := by
    obtain neither | ⟨n,low,same⟩ := exitFieldsCode raw why
    · rw [neither]
      exact ⟨by decide,by decide⟩
    · rw [same]
      exact ⟨by simp,by simp; omega⟩
  have written : ∀ m ∈ [("code".toList,JsonObject.Scalar.int (exitFields raw why).1),
      ("reason".toList,.str (exitFields raw why).2.toList)], Written m.2 :=
    List.forall_mem_cons.mpr ⟨small,List.forall_mem_singleton.mpr trivial⟩
  refine ⟨_,(congrArg j.loads (exitText raw why)).trans (reads.object _ (by simp) written),rfl,?_⟩
  simp [fieldsOf,JsonObject.lookup,toValue]

theorem errorMember (msg : String) : fieldsOf [("message".toList,.str msg.toList)] "message" = some (.str msg) := by
  have found : JsonObject.lookup "message".toList [("message".toList,JsonObject.Scalar.str msg.toList)] =
      some (.str msg.toList) := by simp [JsonObject.lookup]
  rw [fieldsOf,found,Option.map_some,toValue,String.ofList_toList]

theorem errorLoads (reads : Reads j) (msg : String) :
    ∃ fields, j.loads (errorFrame msg).payload = .object fields ∧ messageText fields = msg ∧ messageEncodes fields = true := by
  refine ⟨_,(congrArg j.loads (errorText msg)).trans (reads.object _ (by simp) (List.forall_mem_singleton.mpr trivial)),?_,?_⟩
  · rw [messageText,errorMember]
    rfl
  · rw [messageEncodes,errorMember]
    rfl

end Control

end Guesthopper.GuestJson
