import Mathlib.Tactic.TypeStar

/-! Links that both of their ends record: the lower end names the upper one, and the upper end
lists the lower one. Either end may be missing, and then its own record is too.
-/

namespace TwoEndedLinks

variable {α : Type*}

/-- Wherever the other end of a link is present, it records the link as well. -/
structure Agree (present : α → Prop) (names lists : α → α → Prop) : Prop where
  listed : ∀ {a b}, names a b → present b → lists b a
  named : ∀ {a b}, lists b a → present a → names a b

variable {present newPresent : α → Prop} {names lists newNames newLists links : α → α → Prop}

theorem agree_empty : Agree (fun _ : α => False) names lists where
  listed _ absent := absent.elim
  named _ absent := absent.elim

/-- The ends still agree when every record comes from new links that both ends get, or from
an old record whose other end was present, and old records stay wherever their other end still
has its own.
-/
theorem Agree.relink (agree : Agree present names lists)
    (linksNamed : ∀ {a b}, links a b → newNames a b)
    (linksListed : ∀ {a b}, links a b → newPresent b → newLists b a)
    (names_before
      : ∀ {a b}, newNames a b → newPresent b → links a b ∨ names a b ∧ present b)
    (lists_before
      : ∀ {a b}, newLists b a → newPresent a → links a b ∨ lists b a ∧ present a)
    (stillListed : ∀ {a b}, newNames a b → newPresent b → lists b a → newLists b a)
    (stillNamed : ∀ {a b}, newLists b a → newPresent a → names a b → newNames a b)
    : Agree newPresent newNames newLists where
  listed names here := by
    rcases names_before names here with link | ⟨before, was⟩
    · exact linksListed link here
    · exact stillListed names here (agree.listed before was)
  named lists here := by
    rcases lists_before lists here with link | ⟨before, was⟩
    · exact linksNamed link
    · exact stillNamed lists here (agree.named before was)

/-- The ends that are left still agree when records only leave. -/
theorem Agree.restrict (agree : Agree present names lists)
    (within : ∀ {a}, newPresent a → present a)
    (names_before : ∀ {a b}, newNames a b → names a b)
    (lists_before : ∀ {a b}, newLists b a → lists b a)
    (stillListed : ∀ {a b}, newPresent b → lists b a → newLists b a)
    (stillNamed : ∀ {a b}, newPresent a → names a b → newNames a b)
    : Agree newPresent newNames newLists where
  listed names here := stillListed here (agree.listed (names_before names) (within here))
  named lists here := stillNamed here (agree.named (lists_before lists) (within here))

end TwoEndedLinks
