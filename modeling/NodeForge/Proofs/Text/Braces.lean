import Mathlib.Data.List.Basic
import NodeForge.Text.Sign

/-!
# Braces in balance

`Leads a text b` says that a text leads from one depth of braces to another, and that no brace is
closed on the way that was not opened before. Texts put together lead on from one to the next
(`Leads.append`), so a text leads where its pieces do: those without braces, and single braces.
-/

namespace NodeForge.Braces

/-! ### Depth -/

/-- How far a text leads down into braces. -/
def depth (text : Text) : Int := text.count (.char '\x7b') - text.count (.char '\x7d')

/-- Whether a text leads from one depth of braces to another without going below zero. -/
structure Leads (start : Int) (text : Text) (finish : Int) : Prop where
  stays : ∀ front, front <+: text → 0 ≤ start + depth front
  ends : start + depth text = finish

/-- Whether a text has no braces. -/
def IsBraceless (text : Text) : Prop := Sign.char '\x7b' ∉ text ∧ Sign.char '\x7d' ∉ text

instance (text : Text) : Decidable (IsBraceless text) := inferInstanceAs (Decidable (_ ∧ _))

variable {a b c : Int} {s t : Text}

/-! ### Texts put together -/

theorem braceless_append (hs : IsBraceless s) (ht : IsBraceless t) : IsBraceless (s ++ t) := by
  rw [IsBraceless, List.mem_append, List.mem_append, not_or, not_or]
  exact ⟨⟨hs.1, ht.1⟩, hs.2, ht.2⟩

theorem depth_append (s t : Text) : depth (s ++ t) = depth s + depth t := by
  simp only [depth, List.count_append]
  omega

theorem Leads.append (hs : Leads a s b) (ht : Leads b t c) : Leads a (s ++ t) c where
  stays front hfront := by
    rcases List.prefix_or_prefix_of_prefix hfront (List.prefix_append s t) with hshort | ⟨rest, rfl⟩
    · exact hs.stays front hshort
    · have hrest := ht.stays rest ((List.prefix_append_right_inj s).1 hfront)
      rw [depth_append, ← Int.add_assoc, hs.ends]
      exact hrest
  ends := by rw [depth_append, ← Int.add_assoc, hs.ends, ht.ends]

/-! ### Pieces -/

theorem leads_of_braceless (h : IsBraceless s) (ha : 0 ≤ a) : Leads a s a := by
  have hdepth {front : Text} (hfront : front <+: s) : depth front = 0 := by
    rw [depth, List.count_eq_zero_of_not_mem fun hmem => h.1 (hfront.subset hmem),
      List.count_eq_zero_of_not_mem fun hmem => h.2 (hfront.subset hmem)]
    rfl
  refine ⟨fun front hfront => ?_, ?_⟩
  · rwa [hdepth hfront, Int.add_zero]
  · rw [hdepth List.prefix_rfl, Int.add_zero]

theorem leads_nil (ha : 0 ≤ a) : Leads a [] a := leads_of_braceless (by decide) ha

theorem leads_single (sign : Sign) (ha : 0 ≤ a) (hb : 0 ≤ a + depth [sign]) :
    Leads a [sign] (a + depth [sign]) where
  stays front hfront := by
    rcases List.prefix_cons_iff.1 hfront with rfl | ⟨rest, rfl, hrest⟩
    · simpa [depth] using ha
    · rwa [List.prefix_nil.1 hrest]
  ends := rfl

theorem leads_open (ha : 0 ≤ a) : Leads a "\x7b" (a + 1) := by
  have hdepth : depth [.char '\x7b'] = 1 := by decide
  have hleads := leads_single (.char '\x7b') ha (by omega)
  rwa [hdepth] at hleads

theorem leads_close (ha : 0 ≤ a) : Leads (a + 1) "\x7d" a := by
  have hdepth : depth [.char '\x7d'] = -1 := by decide
  have hleads := leads_single (a := a + 1) (.char '\x7d') (by omega) (by omega)
  rwa [hdepth, Int.add_neg_cancel_right] at hleads

end NodeForge.Braces
