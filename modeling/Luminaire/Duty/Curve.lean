/-!
# The luminance curve

The eye judges brightness on a scale of its own, so the duty cycle of a lamp is not proportional
to the component it shows. The curve assigns to each component a duty on a scale of `fullScale`
steps. Its values were calibrated on the lamps and are data; no formula reproduces them.
-/

namespace Luminaire

namespace Duty

/-- The duty of a lamp that is always on. -/
def fullScale : UInt16 := 4096

set_option maxRecDepth 2048 in
/-- The calibrated duties, one for each value of a component. -/
def curve : Vector UInt16 256 :=
  #v[
    0, 1, 3, 13, 14, 15, 16, 17, 18, 19, 20, 21, 23, 24, 26, 27,
    29, 30, 32, 33, 35, 37, 39, 41, 43, 45, 47, 49, 51, 53, 56, 58,
    61, 63, 66, 68, 71, 74, 77, 80, 83, 86, 89, 93, 96, 99, 103, 107,
    110, 114, 118, 122, 126, 130, 134, 139, 143, 148, 152, 157, 162, 166, 171, 176,
    182, 187, 192, 198, 203, 209, 215, 221, 227, 233, 239, 245, 252, 258, 265, 272,
    278, 285, 293, 300, 307, 315, 322, 330, 338, 346, 354, 362, 370, 379, 387, 396,
    405, 414, 423, 432, 441, 451, 460, 470, 480, 490, 500, 510, 521, 531, 542, 553,
    564, 575, 587, 598, 610, 621, 633, 645, 657, 670, 682, 695, 708, 721, 734, 747,
    761, 774, 788, 802, 816, 830, 845, 859, 874, 889, 904, 919, 935, 950, 966, 982,
    998, 1015, 1031, 1048, 1065, 1082, 1099, 1116, 1134, 1151, 1169, 1187, 1206, 1224, 1243, 1262,
    1281, 1300, 1319, 1339, 1359, 1379, 1399, 1420, 1440, 1461, 1482, 1503, 1525, 1546, 1568, 1590,
    1612, 1635, 1657, 1680, 1703, 1726, 1750, 1773, 1797, 1821, 1846, 1870, 1895, 1920, 1945, 1971,
    1996, 2022, 2048, 2074, 2101, 2128, 2155, 2182, 2209, 2237, 2265, 2293, 2321, 2350, 2379, 2408,
    2437, 2466, 2496, 2526, 2556, 2587, 2617, 2648, 2680, 2711, 2743, 2775, 2807, 2839, 2872, 2905,
    2938, 2971, 3005, 3039, 3073, 3108, 3142, 3177, 3212, 3248, 3284, 3320, 3356, 3392, 3429, 3466,
    3503, 3541, 3579, 3617, 3655, 3694, 3733, 3772, 3812, 3851, 3891, 3932, 3972, 4013, 4054, 4096
  ]

/-- The duty of a component. -/
def ofComponent (component : UInt8) : UInt16 :=
  curve.get ⟨component.toNat, component.toNat_lt⟩

end Duty

end Luminaire
