import Easel.Description.Statement
import Easel.Proofs.Text.Similarity
import Easel.Text.Character

/-! The keyword that is suggested for a word that is none. The table of the keywords gives them in
another order each time that the program runs. The words for which that makes no difference are
those that have no two likeliest keywords; all keywords that are likeliest for a word are suggested
for it in some run. -/

namespace Easel.Description

open Similarity

namespace Keyword

def texts : List String := all.map text

/-- No other keyword is as likely for a word as its likeliest one. -/
def Unrivalled (word : String) : Prop :=
  ∀ k ∈ texts, ∀ l ∈ texts, IsLikeliest word texts k → IsLikeliest word texts l → k = l

instance (word : String) : Decidable (Unrivalled word) :=
  inferInstanceAs (Decidable (∀ k ∈ texts, ∀ l ∈ texts, _ → _ → _))

end Keyword

open Keyword

/-- The rejection of a word that is no keyword, if the keywords are gone through in some order. -/
def unknownKeyword (order : List String) (t : Token) : Rejection :=
  ⟨t.position, .unknownKeyword t.text, (closest? t.text order).map suggestion⟩

variable {c : Context} {t : Token} {ts : List Token} {word : String} {order : List String}

theorem statement_unknownKeyword [Keyword.Order] (hname : t.kind = .name)
    (hnone : ofText? t.text = none) :
    statement c t ts = .error (unknownKeyword (Order.keywords.map text) t) := by
  rw [statement, if_neg (not_not_intro hname), hnone]
  rfl

theorem perm_keywords [Keyword.Order] : (Order.keywords.map text).Perm texts :=
  Order.perm.map text

/-- There is a run for every order of the keywords. -/
theorem exists_keywords_map_eq (h : order.Perm texts) :
    ∃ _ : Keyword.Order, Order.keywords.map text = order := by
  have hall : texts.filterMap ofText? = all := by decide
  refine ⟨⟨order.filterMap ofText?, hall ▸ h.filterMap ofText?⟩, ?_⟩
  have hsame : ∀ k ∈ order, (ofText? k).map text = some k := by
    have htexts : ∀ k ∈ texts, (ofText? k).map text = some k := by decide
    exact fun k hk => htexts k (h.mem_iff.mp hk)
  show (order.filterMap ofText?).map text = order
  rw [List.map_filterMap, List.filterMap_congr hsame, List.filterMap_some]

theorem suggestion_inj {name other : String} :
    suggestion name = suggestion other ↔ name = other := by
  have hchars (name : String) : (suggestion name).toList =
      "did you mean '".toList ++ name.toList ++ "'?".toList := by
    rw [← String.toList_append, ← String.toList_append]
    rfl
  rw [← String.toList_inj, hchars, hchars, List.append_left_inj, List.append_right_inj,
    String.toList_inj]

theorem unknownKeyword_eq_iff {order' : List String} :
    unknownKeyword order t = unknownKeyword order' t ↔
      closest? t.text order = closest? t.text order' := by
  have hmap : Function.Injective (Option.map suggestion) :=
    Option.map_injective fun _ _ h => suggestion_inj.mp h
  simp only [unknownKeyword, Rejection.mk.injEq, true_and, hmap.eq_iff]

/-- The orders of the keywords lead to one answer just when the word has no two likeliest ones. -/
theorem closest?_orders_iff {base : List String} (hbase : base.Perm texts) :
    (∀ order, order.Perm texts → closest? word base = closest? word order) ↔ Unrivalled word := by
  constructor
  · intro h k _ l _ hk hl
    obtain ⟨order, hperm, hclosest⟩ := hk.exists_order
    obtain ⟨order', hperm', hclosest'⟩ := hl.exists_order
    rw [← h order hperm] at hclosest
    rw [← h order' hperm', hclosest] at hclosest'
    exact Option.some.inj hclosest'
  · intro h order hperm
    have hsame {list : List String} (hlist : list.Perm texts) :
        closest? word list = closest? word texts :=
      closest?_perm hlist fun k l hk hl => h k hk.mem l hl.mem hk hl
    rw [hsame hbase, hsame hperm]

/-- The report of a word that is no keyword is the same in all runs, whatever their orders of the
keywords, if and only if no two keywords are likeliest for the word. The keywords that are suggested
in some order are the likeliest ones. -/
theorem statement_suggestion_iff (hname : t.kind = .name) (hnone : ofText? t.text = none) :
    ((∀ run run' : Keyword.Order, @statement run c t ts = @statement run' c t ts) ↔
      Unrivalled t.text) ∧
    (∀ _ : Keyword.Order, (∀ order, order.Perm texts →
      statement c t ts = .error (unknownKeyword order t)) ↔ Unrivalled t.text) ∧
    ((∀ order order', order.Perm texts → order'.Perm texts →
      closest? t.text order = closest? t.text order') ↔ Unrivalled t.text) ∧
    ∀ k, IsLikeliest t.text texts k ↔
      ∃ order, order.Perm texts ∧ closest? t.text order = some k := by
  have horders (run : Keyword.Order) : (∀ order, order.Perm texts →
      statement c t ts = .error (unknownKeyword order t)) ↔ Unrivalled t.text := by
    simp only [statement_unknownKeyword hname hnone, Except.error.injEq, unknownKeyword_eq_iff]
    exact closest?_orders_iff perm_keywords
  refine ⟨⟨fun h => ?_, fun h run run' => ?_⟩, horders, ⟨fun h => ?_, ?_⟩,
    fun k => isLikeliest_iff_exists_order⟩
  · refine (horders instOrder).mp fun order hperm => ?_
    obtain ⟨run, hrun⟩ := exists_keywords_map_eq hperm
    rw [h instOrder run, statement_unknownKeyword hname hnone, hrun]
  · exact ((horders run).mpr h _ (@perm_keywords run')).trans
      (statement_unknownKeyword hname hnone).symm
  · exact (closest?_orders_iff (.refl texts)).mp fun order => h texts order (.refl texts)
  · intro h order order' hperm
    exact (closest?_orders_iff hperm).mpr h order'

def misspeltKeyword : Token := ⟨.name, "circel", ⟨2, 1, 9, 6⟩⟩

theorem misspeltKeyword_suggestion : ofText? misspeltKeyword.text = none ∧
    ∀ order, order.Perm texts → statement ⟨.blank 1 1, ⟨3, 0, 15, 0⟩⟩ misspeltKeyword [] =
      .error (unknownKeyword order misspeltKeyword) := by
  have hnone : ofText? misspeltKeyword.text = none := by decide +kernel
  have hunrivalled : Unrivalled misspeltKeyword.text := by decide +kernel
  exact ⟨hnone, ((statement_suggestion_iff rfl hnone).2.1 instOrder).mpr hunrivalled⟩

/-- For a word that is as like to one keyword as to another, the last one is suggested. -/
theorem exists_suggestion_ne : ∃ word order order', Text.isName word.toList = true ∧
    ofText? word = none ∧ order.Perm texts ∧ order'.Perm texts ∧
      closest? word order = some "circ" ∧ closest? word order' = some "rect" := by
  refine ⟨"irec", texts.reverse, texts, ?_, ?_, List.reverse_perm texts, .refl texts, ?_, ?_⟩
  · decide +kernel
  · decide +kernel
  · decide +kernel
  · decide +kernel

end Easel.Description
