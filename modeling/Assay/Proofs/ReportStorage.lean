import Assay.Proofs.BuiltReports
import Assay.Proofs.StoredRuns

/-!
# Reports survive storage

Reading the document of a built report gives the report back, in memory and from a store
(`Report.survives_storage`): a built report has nothing that reading would replace, and a store gives back
the bytes that it was given.
-/

namespace Assay

namespace Report

/-- **Storage.** The document of a built report is read as that report, and the metrics of the results that
are read are those of the report. If the report is stored under an id, and its document gives back the values
that were written, then it is read again under that id. -/
theorem survives_storage {r : Report} (hr : r.IsBuilt) :
    (∃ r' m, ofValue r.toValue = .ok r' ∧ r'.Same r ∧ Metrics.ofResults r'.results = .ok m ∧ m.toValue = r.metrics) ∧
    ∀ (s : RunStore) (now : Moment) (d d' : Disk) (id : String), now.IsShown →
      (s.store now r).run d = (.ok id, d') → Json.RoundTrips (r.withRunId id).toValue →
        ∃ r', s.load d' id = .ok r' ∧ r'.Same (r.withRunId id) := by
  obtain ⟨hsound, m, hm, hmetrics⟩ := hr.sound
  constructor
  · obtain ⟨r', hread, hsame⟩ := ofValue_reordered hsound (.refl _)
    exact ⟨r', m, hread, hsame, by rw [Metrics.ofResults_of_same hsame.results, hm], hmetrics⟩
  · intro s now d d' id hnow hstore hjson
    have hid : id ≠ "" := by
      obtain ⟨-, -, hdigits, -⟩ := RunStore.file_of_store hnow hstore
      rintro rfl
      exact absurd hdigits.length (by decide)
    exact RunStore.load_of_store (hr.stamped hid).sound.1 hnow hstore hjson

end Report

namespace Corpus.Nested

/-- A place for runs beside the corpus. -/
def store : RunStore := ⟨Path.ofNames ["store"]⟩

def now : Moment := ⟨⟨2024, 1, 1⟩, 12, 30, 15, 0, some 0⟩

/-- The report of the evaluation is stored under the first number of the day. -/
theorem store_report : ∃ d', (store.store now report).run disk = (.ok "2024010101123015", d') := by
  obtain ⟨made, hmade, hat⟩ : ∃ made, disk.mkdirs store.runs = (.ok (), made) ∧
      made.IsAt store.runs ["store", "runs"] [] := ⟨_, rfl, rfl, rfl⟩
  have hfree : RunStore.freeId now [] = some "2024010101123015" := by decide
  have hplan : (RunStore.plan now store.runs report []).outcome = .ok "2024010101123015" := by
    rw [RunStore.plan_of_freeId hfree]
    exact RunStore.outcome_planUnder (by decide +kernel) (by decide +kernel) (by decide +kernel) (by decide +kernel)
      (by decide)
  exact ⟨_, RunStore.run_store hmade hat hplan⟩

end Corpus.Nested

theorem Report.survives_storage_nested : ∃ r' m d' r'',
    ofValue Corpus.Nested.report.toValue = .ok r' ∧ r'.Same Corpus.Nested.report ∧
      Metrics.ofResults r'.results = .ok m ∧ m.toValue = Corpus.Nested.report.metrics ∧
        (Corpus.Nested.store.store Corpus.Nested.now Corpus.Nested.report).run Corpus.Nested.disk =
          (.ok "2024010101123015", d') ∧
          Corpus.Nested.store.load d' "2024010101123015" = .ok r'' ∧
            r''.Same (Corpus.Nested.report.withRunId "2024010101123015") := by
  obtain ⟨⟨r', m, hread, hsame, hm, hmetrics⟩, hstored⟩ := survives_storage Corpus.Nested.isBuilt_report
  obtain ⟨d', hd'⟩ := Corpus.Nested.store_report
  have hnow : Corpus.Nested.now.IsShown := ⟨by decide, by decide, by decide, by decide, by decide, by decide⟩
  have hjson : Json.RoundTrips (Corpus.Nested.report.withRunId "2024010101123015").toValue :=
    @Json.roundTrips_of_isStorable true _ (by decide +kernel)
  obtain ⟨r'', hload, hsame''⟩ := hstored _ _ _ _ _ hnow hd' hjson
  exact ⟨r', m, d', r'', hread, hsame, hm, hmetrics, hd', hload, hsame''⟩
end Assay
