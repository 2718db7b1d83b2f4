import AchievementLang.Proofs.Eval.Effects

/-!
# What leaves the functions as they are

Only the declaration of a function changes what names denote. All that the functions of the language
do, registering achievements and leaderboards included, leaves the table of functions alone
(`Eval.KeepsFunctions`), whatever the arguments and however it ends.
-/

namespace AchievementLang

namespace Eval

variable {α : Type}

/-- The evaluation leaves the functions as they are, also if it fails. -/
def KeepsFunctions (x : Eval α) : Prop := ∀ s, (x.run s).2.functions = s.functions

/-- Neither an event nor what is registered is a function. -/
theorem permits_functions : Permits fun s s' => s'.functions = s.functions where
  refl _ := rfl
  trans h h' := h'.trans h
  event _ _ := rfl
  achievement _ _ _ _ := rfl
  leaderboard _ _ _ _ := rfl

end Eval

open Eval

namespace Activation

variable (a : Activation)

theorem keepsFunctions_accessor : KeepsFunctions a.accessor := permits_functions.leads_accessor a

theorem keepsFunctions_bit : KeepsFunctions a.bit := permits_functions.leads_bit a

theorem keepsFunctions_prev : KeepsFunctions a.prev := permits_functions.leads_prev a

theorem keepsFunctions_repeated : KeepsFunctions a.repeated := permits_functions.leads_repeated a

theorem keepsFunctions_around : KeepsFunctions a.around := permits_functions.leads_around a

theorem keepsFunctions_registerAchievement : KeepsFunctions a.registerAchievement :=
  permits_functions.leads_registerAchievement a

theorem keepsFunctions_registerLeaderboard : KeepsFunctions a.registerLeaderboard :=
  permits_functions.leads_registerLeaderboard a

end Activation

end AchievementLang
