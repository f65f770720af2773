import PointElevation.Grid
import PointElevation.Number.Binary

/-!
# From latitude and longitude to the grid

The service is asked in WGS84 degrees and its tiles lie on the LV95 grid.  The way goes over
geocentric coordinates: a point of the WGS84 ellipsoid is taken to Cartesian coordinates, moved by
a fixed shift, taken back to angles on the Bessel ellipsoid, and projected by the Swiss oblique
Mercator projection, a conformal map of the ellipsoid to a sphere followed by a Mercator
projection of the sphere turned to Bern.

A projection is just a function from angles to the plane, so everything that uses one works for
any; `lv95` is the one in use.  A point that has no finite image has no position.
-/

namespace PointElevation

open PointElevation.Number (truncate?)

/-- A map from latitude and longitude in degrees to easting and northing in metres, not
necessarily finite ones. -/
abbrev Projection := Float → Float → Float × Float

namespace Projection

def pi : Float := 3.14159265358979323846

def radians (degrees : Float) : Float := degrees * (pi / 180.0)

/-- An ellipsoid of revolution. -/
structure Ellipsoid where
  semiMajor : Float
  inverseFlattening : Float

namespace Ellipsoid

def wgs84 : Ellipsoid := ⟨6378137.0, 298.257223563⟩

def bessel : Ellipsoid := ⟨6377397.155, 299.1528128⟩

/-- The square of the eccentricity. -/
def eccentricitySquared (e : Ellipsoid) : Float :=
  let flattening := 1.0 / e.inverseFlattening
  flattening * (2.0 - flattening)

def semiMinor (e : Ellipsoid) : Float := e.semiMajor * (1.0 - e.eccentricitySquared).sqrt

end Ellipsoid

/-- A point in space, in metres from the centre of the earth. -/
structure Geocentric where
  x : Float
  y : Float
  z : Float

/-- A point of an ellipsoid, in radians. -/
structure Geographic where
  latitude : Float
  longitude : Float

/-- The point in space of a point on the surface. -/
def Geographic.toGeocentric (e : Ellipsoid) (g : Geographic) : Geocentric :=
  let es := e.eccentricitySquared
  let sinLat := g.latitude.sin
  let normal := e.semiMajor / (1.0 - es * sinLat * sinLat).sqrt
  { x := normal * g.latitude.cos * g.longitude.cos
    y := normal * g.latitude.cos * g.longitude.sin
    z := normal * (1.0 - es) * sinLat }

/-- The shift between the centres of the two ellipsoids. -/
def Geocentric.shift (p : Geocentric) : Geocentric := ⟨p.x - 674.374, p.y - 15.056, p.z - 405.346⟩

/-- The angles of a point near the surface, by one step of Bowring's method.  At the axis the
latitude is a right angle with the sign of the height above the equator. -/
def Geocentric.toGeographic (e : Ellipsoid) (p : Geocentric) : Geographic :=
  let a := e.semiMajor
  let b := e.semiMinor
  let es := e.eccentricitySquared
  let secondEccentricitySquared := (a * a - b * b) / (b * b)
  let distance := (p.x * p.x + p.y * p.y).sqrt
  let adjacent := distance * b
  let opposite := p.z * a
  let norm := (adjacent * adjacent + opposite * opposite).sqrt
  let c := if norm == 0.0 then 1.0 else adjacent / norm
  let s := if norm == 0.0 then 0.0 else opposite / norm
  let denominator := distance - es * a * c * c * c
  let latitude :=
    if denominator <= 0.0 then (if p.z < 0.0 then -pi / 2.0 else pi / 2.0)
    else ((p.z + secondEccentricitySquared * b * s * s * s) / denominator).atan
  ⟨latitude, Float.atan2 p.y p.x⟩

/-- Keeps a rounding error from leaving the domain of the inverse sine. -/
def clampUnit (x : Float) : Float := if x > 1.0 then 1.0 else if x < -1.0 then -1.0 else x

/-- Brings an angle that is at most one turn off into the range from minus to plus half a turn. -/
def wrap (angle : Float) : Float :=
  if angle > pi then angle - 2.0 * pi else if angle < -pi then angle + 2.0 * pi else angle

/-- The logarithm of the Mercator ordinate of a latitude on the sphere. -/
def mercator (latitude : Float) : Float := (pi / 4.0 + latitude / 2.0).tan.log

/-- What the ellipsoid takes off the Mercator ordinate, for `s = e sin latitude`. -/
def flatteningTerm (e s : Float) : Float := e / 2.0 * ((1.0 + s) / (1.0 - s)).log

/-- The latitude of Bern. -/
def originLatitude : Float := radians 46.9524055555556

/-- The longitude of Bern. -/
def originLongitude : Float := radians 7.43958333333333

def falseEasting : Float := 2600000.0

def falseNorthing : Float := 1200000.0

/-- The Swiss oblique Mercator projection of an ellipsoid. -/
def swissObliqueMercator (ellipsoid : Ellipsoid) (g : Geographic) : Float × Float :=
  let es := ellipsoid.eccentricitySquared
  let e := es.sqrt
  let phi0 := originLatitude
  let cosPhi0 := phi0.cos
  let sinPhi0 := phi0.sin
  let c := (1.0 + es * cosPhi0 * cosPhi0 * cosPhi0 * cosPhi0 / (1.0 - es)).sqrt
  let sphereOrigin := (clampUnit (sinPhi0 / c)).asin
  let s0 := e * sinPhi0
  let radius := ellipsoid.semiMajor * ((1.0 - es).sqrt / (1.0 - s0 * s0))
  let constant := mercator sphereOrigin - c * (mercator phi0 - flatteningTerm e s0)
  let ordinate :=
    c * (mercator g.latitude - flatteningTerm e (e * g.latitude.sin)) + constant
  let sphereLatitude := 2.0 * ordinate.exp.atan - pi / 2.0
  let sphereLongitude := c * wrap (g.longitude - originLongitude)
  let turnedLatitude := (clampUnit (sphereOrigin.cos * sphereLatitude.sin
    - sphereOrigin.sin * sphereLatitude.cos * sphereLongitude.cos)).asin
  let turnedLongitude :=
    (clampUnit (sphereLatitude.cos * sphereLongitude.sin / turnedLatitude.cos)).asin
  (falseEasting + radius * turnedLongitude, falseNorthing + radius * mercator turnedLatitude)

/-- A latitude may exceed a right angle by this much and is then taken for one. -/
def latitudeTolerance : Float := 1.0e-12

/-- The largest longitude, in radians. -/
def longitudeLimit : Float := 10.0

/-- From WGS84 degrees to the LV95 plane.  Angles out of range have no finite image. -/
def lv95 : Projection := fun latitude longitude =>
  let phi := radians latitude
  let lambda := radians longitude
  let outside := 1.0 / 0.0
  if !phi.isFinite || !lambda.isFinite || phi.abs - pi / 2.0 > latitudeTolerance
      || lambda.abs > longitudeLimit then (outside, outside)
  else
    let phi := if phi > pi / 2.0 then pi / 2.0 else if phi < -pi / 2.0 then -pi / 2.0 else phi
    let space := Geographic.toGeocentric .wgs84 ⟨phi, lambda⟩
    swissObliqueMercator .bessel (Geocentric.toGeographic .bessel space.shift)

/-- The position of a point, its fractions dropped; none if an image coordinate is not finite. -/
def position? (project : Projection) (latitude longitude : Float) : Option Position := do
  let image := project latitude longitude
  let x ← truncate? image.1
  let y ← truncate? image.2
  some ⟨x, y⟩

/-- The coordinate system of the points asked for. -/
def sourceSystem : String := "EPSG:4326"

/-- The coordinate system of the dataset. -/
def targetSystem : String := "EPSG:2056"

/-- Two coordinate systems between which no projection is known. -/
structure UnknownSystems where
  source : String
  target : String
deriving DecidableEq, Repr

/-- What could not be done. -/
def UnknownSystems.subject (fault : UnknownSystems) : String :=
  "Could not resolve coordinate systems " ++ fault.source ++ " -> " ++ fault.target

def UnknownSystems.message (fault : UnknownSystems) : String :=
  fault.subject ++ ": no projection is known between them"

/-- The projection between two named coordinate systems. -/
def between (source target : String) : Except UnknownSystems Projection :=
  if source = sourceSystem ∧ target = targetSystem then .ok lv95 else .error ⟨source, target⟩

end Projection

end PointElevation
