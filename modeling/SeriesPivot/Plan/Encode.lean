import SeriesPivot.Plan.Basic
import SeriesPivot.Descriptor.Codec

/-!
# Plans as JSON

`QueryPlan.toJson` shows a plan with its sub-queries under their keys. A limit is written only if there is
one.
-/

namespace SeriesPivot

/-- A plan as an object. -/
def QueryPlan.toJson (p : QueryPlan) : Json :=
  .object (("uid", .string p.uid) :: ("cost", .ofInt 0) ::
    ("colQueries", .object (p.subQueries.map fun (key, s) => (key, s.toJson))) ::
    ("dimensions", .array (p.dimensions.map Dimension.toJson)) ::
    ("metrics", .array (p.metrics.map Metric.toJson)) ::
    (limitField p.limit ++ [("timeSeries", .bool p.timeSeries)]))

end SeriesPivot
