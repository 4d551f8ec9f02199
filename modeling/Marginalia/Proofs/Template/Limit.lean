import Marginalia.Proofs.Template.Depth
import Marginalia.Proofs.Template.Origin

/-
What the limit on nesting does.  Blocks that stand inside each other are no more than it
allows; and where it refuses no opener, a higher one makes no difference.
-/
namespace Marginalia

/-! ## Chains of blocks -/

namespace Token

/-- Blocks of a sequence that stand inside each other, at any distance, outermost first. -/
inductive Nests : List Token → List Token → Prop where
  | nil (ts : List Token) : Nests ts []
  | cons {ts body chain : List Token} {key : Text} (hmem : .block key body ∈ withins ts)
    (hrest : Nests body chain) : Nests ts (.block key body :: chain)

theorem depth_le_of_mem_withins {t : Token} {ts : List Token} (h : t ∈ withins ts) :
    depth t ≤ depths ts := by
  cases ts with
  | nil => cases h
  | cons u rest =>
    have hbehind : t ∈ withins rest → depth t ≤ depths (u :: rest) := by
      intro h
      have := depth_le_of_mem_withins h
      rw [depths]
      omega
    cases u with
    | text v =>
      rw [withins_text, List.mem_cons] at h
      rcases h with rfl | h
      · exact Nat.le_max_left _ _
      · exact hbehind h
    | lookup key filters =>
      rw [withins_lookup, List.mem_cons] at h
      rcases h with rfl | h
      · exact Nat.le_max_left _ _
      · exact hbehind h
    | block key body =>
      rw [withins_block, List.mem_cons, List.mem_append] at h
      rcases h with rfl | h | h
      · exact Nat.le_max_left _ _
      · have := depth_le_of_mem_withins h
        rw [depths, depth]
        omega
      · exact hbehind h

/-- No chain of blocks is longer than its sequence is deep. -/
theorem Nests.length_le {ts chain : List Token} (h : Nests ts chain) :
    chain.length ≤ depths ts := by
  induction h with
  | nil ts => exact Nat.zero_le _
  | @cons ts body chain key hmem _ ih =>
    have hblock := depth_le_of_mem_withins hmem
    rw [depth] at hblock
    rw [List.length_cons]
    omega

end Token

/-! ## Raising the limit -/

namespace Reading

/-- No opener was refused for the limit. -/
def HadRoom (r : Reading) : Prop := ∀ a ∈ r.anomalies, a.kind ≠ .depthExceeded

variable {limit limit' : Int} {r : Reading} {offset : Nat}

theorem hadRoom_of_steps {ps : List Piece} (h : (r.steps limit offset ps).HadRoom) : r.HadRoom :=
  fun a ha => h a ((anomalies_steps ps).mem ha)

theorem step_of_le {p : Piece} (hle : limit ≤ limit') (h : (r.step limit offset p).HadRoom) :
    r.step limit' offset p = r.step limit offset p := by
  refine step_congr r offset fun inner key closer hp hread => ?_
  constructor
  · intro hfull
    exact Int.le_trans hle hfull
  · intro hfull
    -- the opener would have been refused under the lower limit
    rw [hp, step_opener limit r offset hread, openBlock, if_pos hfull] at h
    exact absurd rfl (h _ (.head _))

theorem steps_of_le {ps : List Piece} (hle : limit ≤ limit')
    (h : (r.steps limit offset ps).HadRoom) :
    r.steps limit' offset ps = r.steps limit offset ps := by
  induction ps generalizing r offset with
  | nil => rfl
  | cons p rest ih => rw [steps, steps, step_of_le hle (hadRoom_of_steps h), ih h]

end Reading

namespace Parsed

theorem mem_anomalies_finish {template : Text} {r : Reading} {a : Anomaly}
    (h : a ∈ r.anomalies) : a ∈ (finish template r).anomalies := by
  unfold finish
  split
  · exact List.mem_reverse.2 h
  · exact List.mem_reverse.2 (.tail _ h)

/-- Raising a limit that refused no opener makes no difference. -/
theorem ofTemplate_of_le {limit limit' : Int} {template : Text}
    (h : ∀ a ∈ (ofTemplate limit template).anomalies, a.kind ≠ .depthExceeded)
    (hle : limit ≤ limit') : ofTemplate limit' template = ofTemplate limit template := by
  have hroom : (Reading.steps limit {} 0 (Piece.ofTemplate template)).HadRoom :=
    fun a ha => h a (mem_anomalies_finish ha)
  unfold ofTemplate
  rw [Reading.steps_of_le hle hroom]

/-- Blocks stand inside each other at most as often as the limit says, and raising a limit
that refused no opener changes neither the tokens nor the recoveries. -/
theorem limit_only_bounds (limit : Int) (template : Text) :
    (∀ chain, Token.Nests (ofTemplate limit template).tokens chain →
      (chain.length : Int) ≤ max limit 0) ∧
    ((∀ a ∈ (ofTemplate limit template).anomalies, a.kind ≠ .depthExceeded) →
      ∀ limit', limit ≤ limit' → ofTemplate limit' template = ofTemplate limit template) := by
  constructor
  · intro chain hchain
    have hlength := hchain.length_le
    have hdepth := depths_ofTemplate limit template
    omega
  · exact fun h _ => ofTemplate_of_le h

/-- Two blocks inside each other, a closer that belongs to none, and a block that stays open. -/
def leftOpen : Text :=
  ["#a", "#if b", "note", "/if", "/a", "/a", "#a"].flatMap fun inner => Token.tag inner.toList

theorem limit_only_bounds_leftOpen :
    (∃ chain, Token.Nests (ofTemplate 2 leftOpen).tokens chain ∧ chain.length = 2 ∧
      (chain.length : Int) ≤ max 2 0) ∧
    (∀ a ∈ (ofTemplate 2 leftOpen).anomalies, a.kind ≠ .depthExceeded) ∧
    ofTemplate 20 leftOpen = ofTemplate 2 leftOpen := by
  have houter : .block ['a'] [.block ['b'] [.lookup "note".toList []]] ∈
      Token.withins (ofTemplate 2 leftOpen).tokens := by decide +kernel
  have hinner : .block ['b'] [.lookup "note".toList []] ∈
      Token.withins [.block ['b'] [.lookup "note".toList []]] := .head _
  have hchain := Token.Nests.cons houter (.cons hinner (.nil _))
  have hroom : ∀ a ∈ (ofTemplate 2 leftOpen).anomalies, a.kind ≠ .depthExceeded := by
    decide +kernel
  obtain ⟨hbound, hraise⟩ := limit_only_bounds 2 leftOpen
  exact ⟨⟨_, hchain, rfl, hbound _ hchain⟩, hroom, hraise hroom 20 (by decide)⟩

end Parsed
end Marginalia
