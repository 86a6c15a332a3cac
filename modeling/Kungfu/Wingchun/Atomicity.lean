import Kungfu.Wingchun.Completion

/-!
# Updates that throw

An update of books that throws may have changed the book of its source before, or have made
a position in a book; a trade in crypto currencies may overrun arrays instead.  This says exactly when all books are left as they were.
-/

namespace Kungfu.Wingchun

open Longfist

variable {app : App} {market : Market} {method : Method} {u : Update} {books : Books} {uid : UInt32}
  {book : AccountBook}

/-- If an update does not complete, it throws, and every book is as it was; a book that was made is
still empty. -/
def TotalOrAtomic (app : App) (market : Market) (u : Update) (books : Books) : Prop :=
  ∀ thrown, updateBook app market u books = .error thrown →
    thrown.fault ≠ .overrun ∧ ∀ uid, getBook app thrown.state uid = getBook app books uid

/-- The book of the destination is found and ready, if it is updated, too. -/
def DestReady (app : App) (market : Market) (method : Method) (u : Update) (books : Books) : Prop :=
  u.dest = PUBLIC ∨ u.dest = u.source ∨
    ∃ book, getBook app books u.dest = .ok book ∧ book.Ready market method u.data

/-- The update of the source's book throws at a harmless place, or both books are ready. -/
def SafeUpdate (app : App) (market : Market) (u : Update) (books : Books) : Prop :=
  ∀ method, Method.ofInstrumentType u.data.instrumentType = some method →
    ∀ book, getBook app books u.source = .ok book →
      book.Harmless market method u.data ∨
        book.Ready market method u.data ∧ DestReady app market method u books

/-! ## One of the two books -/

theorem exists_applyAndUpdateAt (hbook : getBook app books uid = .ok book)
    (h : book.Ready market method u.data) :
    ∃ book', applyAndUpdateAt app market method u books uid =
        .ok (Function.update books uid (some book')) ∧
      Book.Grows book book' ∧ book'.state.asset.updateTime = u.updateTime := by
  obtain ⟨book', happly, hgrows, htime⟩ :=
    Book.exists_applyAndUpdate h
  refine ⟨book', ?_, hgrows, htime⟩
  simp only [applyAndUpdateAt, hbook, happly]

theorem exists_error_applyAndUpdateAt (hbook : getBook app books uid = .ok book)
    (h : ¬ book.Ready market method u.data) :
    ∃ fault book', applyAndUpdateAt app market method u books uid =
        .error ⟨fault, Function.update books uid (some book')⟩ ∧
      (fault ≠ .overrun ∧ book' = book ↔ book.Harmless market method u.data) := by
  obtain ⟨fault, book', herror, hsame, hleft⟩ :=
    Book.exists_error_applyAndUpdate u.updateTime h
  refine ⟨fault, book', ?_, ?_, hsame⟩
  · simp only [applyAndUpdateAt, hbook, herror]
  · rintro ⟨hfault, rfl⟩
    by_contra hnot
    rcases hleft hnot with hoverrun | ⟨key, hhas, hnothas⟩
    · exact hfault hoverrun
    · exact hnothas hhas

theorem getBook_ne_overrun {fault : Fault} (h : getBook app books uid = .error fault) :
    fault ≠ .overrun := by
  unfold getBook makeBook at h
  split at h
  · cases h
  · split at h <;> cases h
    simp

/-- A ready book does not throw at a harmless place. -/
theorem not_harmless_of_ready (h : book.Ready market method u.data) :
    ¬ book.Harmless market method u.data := by
  intro hharmless
  obtain ⟨direction, hdirection, -, hpair⟩ := h
  obtain ⟨-, trade, hmethod, htrade, hunknown⟩ := hharmless direction hdirection
  obtain ⟨pair, hpair, -⟩ := hpair trade hmethod htrade
  rw [hpair] at hunknown
  cases hunknown

/-! ## Both books -/

/-- When the source's book is ready, only the book of the destination can throw, and the
source's book has changed then. -/
theorem totalOrAtomic_of_ready (hmethod : Method.ofInstrumentType u.data.instrumentType = some method)
    (hbook : getBook app books u.source = .ok book) (hready : book.Ready market method u.data) :
    (DestReady app market method u books → TotalOrAtomic app market u books) ∧
      (book.state.asset.updateTime ≠ u.updateTime → TotalOrAtomic app market u books →
        DestReady app market method u books) := by
  obtain ⟨book', hsource, hgrows, htime⟩ := exists_applyAndUpdateAt hbook hready
  have hupdate : updateBook app market u books =
      if u.dest ≠ PUBLIC then
        applyAndUpdateAt app market method u (Function.update books u.source (some book')) u.dest
      else .ok (Function.update books u.source (some book')) := by
    simp only [updateBook, hmethod, hsource, Outcome.ok_bind]
  by_cases hpub : u.dest = PUBLIC
  · rw [if_neg (not_not.mpr hpub)] at hupdate
    refine ⟨fun _ thrown herror => ?_, fun _ _ => .inl hpub⟩
    rw [hupdate] at herror
    cases herror
  rw [if_pos hpub] at hupdate
  by_cases hdest : u.dest = u.source
  · -- what the source's book was ready for it is ready for again
    obtain ⟨book'', hagain, -⟩ := exists_applyAndUpdateAt (u := u)
      (getBook_update_self book') (hready.mono hgrows)
    refine ⟨fun _ thrown herror => ?_, fun _ _ => .inr (.inl hdest)⟩
    rw [hupdate, hdest, hagain] at herror
    cases herror
  have hother := getBook_update_of_ne app books (some book') hdest
  have hchanged : book.state.asset.updateTime ≠ u.updateTime → book' ≠ book := by
    rintro hfresh rfl
    exact hfresh htime
  -- if the destination's book throws, the one of the source is another one
  have hthrows : ∀ fault books',
      applyAndUpdateAt app market method u (Function.update books u.source (some book')) u.dest =
        .error ⟨fault, books'⟩ → getBook app books' u.source = .ok book' →
      book.state.asset.updateTime ≠ u.updateTime → ¬ TotalOrAtomic app market u books := by
    intro fault books' herror hbook' hfresh hatomic
    have hsame := (hatomic _ (hupdate.trans herror)).2 u.source
    rw [hbook', hbook] at hsame
    exact hchanged hfresh (Except.ok.inj hsame)
  cases hd : getBook app books u.dest with
  | error fault =>
      have herror : applyAndUpdateAt app market method u
          (Function.update books u.source (some book')) u.dest =
            .error ⟨fault, Function.update books u.source (some book')⟩ := by
        simp only [applyAndUpdateAt, hother, hd]
      constructor
      · rintro (h | h | ⟨b, hb, -⟩)
        · exact absurd h hpub
        · exact absurd h hdest
        · rw [hd] at hb
          cases hb
      · intro hfresh hatomic
        exact absurd hatomic (hthrows fault _ herror (getBook_update_self book') hfresh)
  | ok d =>
      by_cases hdready : d.Ready market method u.data
      · obtain ⟨d', hok, -⟩ := exists_applyAndUpdateAt (u := u) (hother.trans hd) hdready
        refine ⟨fun _ thrown herror => ?_, fun _ _ => .inr (.inr ⟨d, hd, hdready⟩)⟩
        rw [hupdate, hok] at herror
        cases herror
      · obtain ⟨fault, d', herror, -⟩ :=
          exists_error_applyAndUpdateAt (u := u) (hother.trans hd) hdready
        constructor
        · rintro (h | h | ⟨b, hb, hb'⟩)
          · exact absurd h hpub
          · exact absurd h hdest
          · rw [hd] at hb
            cases hb
            exact absurd hb' hdready
        · intro hfresh hatomic
          refine absurd hatomic (hthrows fault _ herror ?_ hfresh)
          rw [getBook_update_of_ne app _ _ (Ne.symm hdest)]
          exact getBook_update_self book'

/-- A safe update completes or leaves all books as they were. -/
theorem totalOrAtomic_of_safe (h : SafeUpdate app market u books) :
    TotalOrAtomic app market u books := by
  intro thrown herror
  cases hmethod : Method.ofInstrumentType u.data.instrumentType with
  | none => simp [updateBook, hmethod] at herror
  | some method =>
      cases hbook : getBook app books u.source with
      | error fault =>
          simp only [updateBook, hmethod, applyAndUpdateAt, hbook] at herror
          cases herror
          exact ⟨getBook_ne_overrun hbook, fun _ => rfl⟩
      | ok book =>
          by_cases hready : book.Ready market method u.data
          · have hdest := (h method hmethod book hbook).resolve_left (not_harmless_of_ready hready)
            exact (totalOrAtomic_of_ready hmethod hbook hready).1 hdest.2 thrown herror
          · obtain ⟨fault, book', hsource, hiff⟩ := exists_error_applyAndUpdateAt (u := u) hbook hready
            simp only [updateBook, hmethod, hsource] at herror
            cases herror
            have hharmless := (h method hmethod book hbook).resolve_right fun h => hready h.1
            obtain ⟨hfault, rfl⟩ := hiff.mpr hharmless
            refine ⟨hfault, fun uid => ?_⟩
            by_cases huid : uid = u.source
            · subst huid
              rw [hbook]
              exact getBook_update_self _
            · exact getBook_update_of_ne app _ _ huid

/-- An update that completes or leaves all books as they were is safe, unless the source's book was
updated at the same time before. -/
theorem safe_of_totalOrAtomic (h : TotalOrAtomic app market u books)
    (hfresh : ∀ book, getBook app books u.source = .ok book →
      book.state.asset.updateTime ≠ u.updateTime) : SafeUpdate app market u books := by
  intro method hmethod book hbook
  by_cases hready : book.Ready market method u.data
  · exact .inr ⟨hready, (totalOrAtomic_of_ready hmethod hbook hready).2 (hfresh book hbook) h⟩
  · obtain ⟨fault, book', herror, hiff⟩ := exists_error_applyAndUpdateAt (u := u) hbook hready
    have hthrown : updateBook app market u books =
        .error ⟨fault, Function.update books u.source (some book')⟩ := by
      simp only [updateBook, hmethod, herror]
      rfl
    obtain ⟨hfault, hsame⟩ := h _ hthrown
    have hsource := hsame u.source
    rw [hbook] at hsource
    have heq : book' = book := Except.ok.inj ((getBook_update_self book').symm.trans hsource)
    exact .inl (hiff.mp ⟨hfault, heq⟩)

/-- An update completes or leaves all books as they were if it is safe, and only then, unless
the source's book was updated at the same time before. -/
theorem total_or_atomic_iff_safe (app : App) (market : Market) (u : Update) (books : Books) :
    (SafeUpdate app market u books → TotalOrAtomic app market u books) ∧
      ((∀ book, getBook app books u.source = .ok book →
        book.state.asset.updateTime ≠ u.updateTime) →
        TotalOrAtomic app market u books → SafeUpdate app market u books) :=
  ⟨totalOrAtomic_of_safe, fun hfresh h => safe_of_totalOrAtomic h hfresh⟩

/-! ## An update that is not atomic -/

/-- A trade in a pair of currencies that is not known as an instrument. -/
def exampleCryptoTrade : Update :=
  ⟨1, 10, 77, .trade ⟨8, 1, "", "", "BTCUSDT", "BINANCE", .Crypto, .Buy, 1,
    ⟨.Open, .Speculation, 50000, 0, 0⟩⟩⟩

/-- A market that knows the pair, with a delivery year that is one. -/
def exampleDated : Market where
  instruments := fun _ =>
    some ⟨"BTCUSDT", "BINANCE", .Crypto, 1, 2024, false, 0, 0, 1, 1⟩
  commissions := fun _ => none

/-- The trade throws, and leaves a position in the book of the account.  Where the pair is known with a
delivery year that is no length, it does not throw but overruns the arrays of the names. -/
theorem crypto_trade_not_atomic :
    ¬ TotalOrAtomic exampleApp noInstruments exampleCryptoTrade (fun _ => none) ∧
      ¬ TotalOrAtomic exampleApp exampleDated exampleCryptoTrade (fun _ => none) := by
  constructor
  · intro hatomic
    let key := positionKey .Long "BINANCE" "BTCUSDT"
    cases hrun : updateBook exampleApp noInstruments exampleCryptoTrade fun _ => none with
    | ok books =>
        have hthrows : (updateBook exampleApp noInstruments exampleCryptoTrade fun _ => none).isOk =
            false := by decide +kernel
        rw [hrun] at hthrows
        cases hthrows
    | error thrown =>
        have hbefore : (getBook exampleApp (fun _ => none) 10).toOption.any
            (fun book => book.Has key) = false := by decide +kernel
        have hafter : (match updateBook exampleApp noInstruments exampleCryptoTrade fun _ => none with
            | .ok _ => false
            | .error thrown => (getBook exampleApp thrown.state 10).toOption.any
                fun book => book.Has key) = true := by decide +kernel
        rw [hrun] at hafter
        rw [← (hatomic thrown hrun).2 10] at hbefore
        exact absurd (hbefore.symm.trans hafter) (by decide)
  · intro hatomic
    cases hrun : updateBook exampleApp exampleDated exampleCryptoTrade fun _ => none with
    | ok books =>
        have hthrows : (updateBook exampleApp exampleDated exampleCryptoTrade fun _ => none).isOk =
            false := by decide +kernel
        rw [hrun] at hthrows
        cases hthrows
    | error thrown =>
        have hfault : (match updateBook exampleApp exampleDated exampleCryptoTrade fun _ => none with
            | .ok _ => false
            | .error thrown => decide (thrown.fault = .overrun)) = true := by decide +kernel
        rw [hrun] at hfault
        exact (hatomic thrown hrun).1 (of_decide_eq_true hfault)

end Kungfu.Wingchun
