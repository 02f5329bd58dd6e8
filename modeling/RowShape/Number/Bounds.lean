/-!
The bounds of machine integers.
-/

namespace RowShape

def int64Min : Int := -9223372036854775808

def int64Max : Int := 9223372036854775807

def uint64Max : Nat := 18446744073709551615

def int128Min : Int := -170141183460469231731687303715884105728

def uint128Max : Int := 340282366920938463463374607431768211455

end RowShape
